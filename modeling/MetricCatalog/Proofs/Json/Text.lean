import Mathlib
import MetricCatalog.Json.Text
import MetricCatalog.Proofs.Json.Grammar
import MetricCatalog.Proofs.Text.Lexeme

/-!
# Strings are read by the grammar

A string is read exactly when the grammar says what it spells. What a surrogate pair stands for is
settled by arithmetic on the two halves.
-/

namespace MetricCatalog.Json

section Escapes

variable {s rest : List Char}

theorem FourHex.lt {n : Nat} (hex : FourHex s n rest) : n < 0x10000 := by
  obtain ⟨digits, length, -, rfl, -⟩ := hex
  match digits, length with
  | [a, b, c, d], _ =>
    have ha := Text.digitValue_lt a
    have hb := Text.digitValue_lt b
    have hc := Text.digitValue_lt c
    have hd := Text.digitValue_lt d
    simp only [Text.digitsValue, List.foldl_cons, List.foldl_nil]
    omega

theorem readHex_iff {n : Nat} : readHex s = .ok (n, rest) ↔ FourHex s n rest := by
  constructor
  · intro read
    rw [readHex.eq_def] at read
    split at read
    · next a b c d tail =>
      split at read
      · next m value =>
        cases read
        rw [hexNumber?] at value
        split at value
        · next hex =>
          cases value
          exact ⟨[a, b, c, d], rfl, List.all_eq_true.mp hex, rfl, rfl⟩
        · cases value
      · cases read
    · cases read
  · rintro ⟨digits, length, hex, rfl, rfl⟩
    match digits, length with
    | [a, b, c, d], _ =>
      have all : [a, b, c, d].all (fun digit => (Text.hexValue? digit).isSome) = true :=
        List.all_eq_true.mpr hex
      rw [List.cons_append, List.cons_append, List.cons_append, List.cons_append, List.nil_append,
        readHex, hexNumber?, if_pos all]

theorem shortEscape_iff {letter c : Char} :
    shortEscape? letter = some c ↔ (letter, c) ∈ shortEscapes := by
  constructor
  · intro escape
    rw [shortEscape?.eq_def] at escape
    split at escape <;> cases escape <;> decide
  · intro escape
    simp only [shortEscapes, List.mem_cons, Prod.mk.injEq, List.not_mem_nil, or_false] at escape
    rcases escape with ⟨rfl, rfl⟩ | ⟨rfl, rfl⟩ | ⟨rfl, rfl⟩ | ⟨rfl, rfl⟩ | ⟨rfl, rfl⟩ |
      ⟨rfl, rfl⟩ | ⟨rfl, rfl⟩ | ⟨rfl, rfl⟩ <;> rfl

theorem toNat_valid (c : Char) : c.toNat < 0xD800 ∨ 0xDFFF < c.toNat ∧ c.toNat < 0x110000 :=
  c.valid

/-- Escaped codes that are no halves are characters, and characters are no halves. -/
theorem ofNat_eq_iff {n : Nat} {c : Char} (small : n < 0x10000) :
    (isTrailingSurrogate n = false ∧ isLeadingSurrogate n = false ∧ Char.ofNat n = c) ↔
      n = c.toNat := by
  simp only [isTrailingSurrogate, isLeadingSurrogate, Bool.and_eq_false_iff,
    decide_eq_false_iff_not]
  constructor
  · rintro ⟨notTrail, notLead, rfl⟩
    rcases Nat.lt_or_ge n 0xD800 with low | high
    · rw [Char.toNat_ofNat, if_pos (Or.inl low)]
    · rw [Char.toNat_ofNat, if_pos (Or.inr ⟨by omega, by omega⟩)]
  · rintro rfl
    have valid := toNat_valid c
    refine ⟨by omega, by omega, Char.ofNat_toNat c⟩

theorem toNat_joinSurrogates {lead trail : Nat} (hl : 0xD800 ≤ lead ∧ lead ≤ 0xDBFF)
    (ht : 0xDC00 ≤ trail ∧ trail ≤ 0xDFFF) :
    (joinSurrogates lead trail).toNat = 0x10000 + (lead - 0xD800) * 0x400 + (trail - 0xDC00) := by
  rw [joinSurrogates, Char.toNat_ofNat, if_pos (Or.inr ⟨by omega, by omega⟩)]

theorem halves_iff {lead trail : Nat} {c : Char} :
    (isLeadingSurrogate lead = true ∧ isTrailingSurrogate trail = true ∧
      joinSurrogates lead trail = c) ↔ Halves c lead trail := by
  simp only [isTrailingSurrogate, isLeadingSurrogate, Bool.and_eq_true, decide_eq_true_iff, Halves]
  constructor
  · rintro ⟨isLead, isTrail, rfl⟩
    have joined := toNat_joinSurrogates isLead isTrail
    omega
  · rintro ⟨outside, hl, ht⟩
    have valid := toNat_valid c
    have isLead : 0xD800 ≤ lead ∧ lead ≤ 0xDBFF := by omega
    have isTrail : 0xDC00 ≤ trail ∧ trail ≤ 0xDFFF := by omega
    refine ⟨isLead, isTrail, Char.toNat_inj.mp ?_⟩
    rw [toNat_joinSurrogates isLead isTrail]
    omega

theorem readTrailingSurrogate_iff {lead : Nat} {c : Char} :
    readTrailingSurrogate lead s = .ok (c, rest) ↔
      ∃ second trail, s = '\\' :: 'u' :: second ∧ FourHex second trail rest ∧
        isTrailingSurrogate trail = true ∧ joinSurrogates lead trail = c := by
  constructor
  · intro read
    rw [readTrailingSurrogate.eq_def] at read
    split at read <;> try contradiction
    next second =>
      obtain ⟨⟨trail, more⟩, hex, read⟩ := exists_of_bind_ok read
      dsimp only at read
      split at read
      · next isTrail =>
        obtain ⟨joined, rfl⟩ := Prod.mk.inj (Except.ok.inj read)
        exact ⟨second, trail, rfl, readHex_iff.mp hex, isTrail, joined⟩
      · cases read
  · rintro ⟨second, trail, rfl, hex, isTrail, rfl⟩
    rw [readTrailingSurrogate, readHex_iff.mpr hex]
    exact if_pos isTrail

/-- What may follow a backslash, and what it stands for. -/
theorem readEscape_iff {c : Char} :
    readEscape s = .ok (c, rest) ↔
      (∃ letter, (letter, c) ∈ shortEscapes ∧ s = letter :: rest) ∨
      (∃ digits, s = 'u' :: digits ∧ FourHex digits c.toNat rest) ∨
      ∃ first second lead trail, Halves c lead trail ∧ s = 'u' :: first ∧
        FourHex first lead ('\\' :: 'u' :: second) ∧ FourHex second trail rest := by
  constructor
  · intro read
    rw [readEscape.eq_def] at read
    split at read
    · cases read
    · next letter tail =>
      split at read
      · next plain escape =>
        cases read
        exact Or.inl ⟨letter, shortEscape_iff.mp escape, rfl⟩
      · split at read
        · next code =>
          subst code
          obtain ⟨⟨n, more⟩, hex, read⟩ := exists_of_bind_ok read
          have hex := readHex_iff.mp hex
          dsimp only at read
          split at read
          · cases read
          · next notTrail =>
            split at read
            · next isLead =>
              obtain ⟨second, trail, rfl, trailing, isTrail, joined⟩ :=
                readTrailingSurrogate_iff.mp read
              exact Or.inr (Or.inr ⟨tail, second, n, trail,
                halves_iff.mp ⟨isLead, isTrail, joined⟩, rfl, hex, trailing⟩)
            · next notLead =>
              cases read
              have value := (ofNat_eq_iff hex.lt).mp
                ⟨Bool.eq_false_iff.mpr notTrail, Bool.eq_false_iff.mpr notLead, rfl⟩
              exact Or.inr (Or.inl ⟨tail, rfl, value ▸ hex⟩)
        · cases read
  · have code : shortEscape? 'u' = none := rfl
    rintro (⟨letter, escape, rfl⟩ | ⟨digits, rfl, hex⟩ |
      ⟨first, second, lead, trail, halves, rfl, leading, trailing⟩)
    · rw [readEscape, shortEscape_iff.mpr escape]
    · obtain ⟨notTrail, notLead, same⟩ := (ofNat_eq_iff hex.lt).mpr (Eq.refl c.toNat)
      rw [readEscape, code]
      simp only [if_true, readHex_iff.mpr hex, bind, Except.bind, notTrail, notLead, same,
        Bool.false_eq_true, if_false]
    · obtain ⟨isLead, isTrail, joined⟩ := halves_iff.mpr halves
      have notTrail : isTrailingSurrogate lead = false := by
        simp only [isLeadingSurrogate, isTrailingSurrogate, Bool.and_eq_true, decide_eq_true_iff,
          Bool.and_eq_false_iff, decide_eq_false_iff_not] at isLead ⊢
        omega
      rw [readEscape, code]
      simp only [if_true, readHex_iff.mpr leading, bind, Except.bind, notTrail, isLead,
        Bool.false_eq_true, if_false]
      exact readTrailingSurrogate_iff.mpr ⟨second, trail, rfl, trailing, isTrail, joined⟩

theorem skipEscape_iff :
    skipEscape s = .ok rest ↔
      (∃ letter c, (letter, c) ∈ shortEscapes ∧ s = letter :: rest) ∨
      ∃ digits n, s = 'u' :: digits ∧ FourHex digits n rest := by
  constructor
  · intro skip
    rw [skipEscape.eq_def] at skip
    split at skip
    · cases skip
    · next letter tail =>
      split at skip
      · next plain escape =>
        cases skip
        exact Or.inl ⟨letter, plain, shortEscape_iff.mp escape, rfl⟩
      · split at skip
        · next code =>
          subst code
          obtain ⟨⟨n, more⟩, hex, rfl⟩ := exists_of_map_ok skip
          exact Or.inr ⟨tail, n, rfl, readHex_iff.mp hex⟩
        · cases skip
  · have code : shortEscape? 'u' = none := rfl
    rintro (⟨letter, c, escape, rfl⟩ | ⟨digits, n, rfl, hex⟩)
    · rw [skipEscape, shortEscape_iff.mpr escape]
    · rw [skipEscape, code]
      simp only [if_true, readHex_iff.mpr hex, Except.map]

end Escapes

section Strings

variable {s rest : List Char} {c : Char}

theorem plain_iff : Plain c ↔ c ≠ '"' ∧ c ≠ '\\' ∧ isControl c = false := by
  simp only [Plain, isControl, decide_eq_false_iff_not, Nat.not_lt]

theorem readText_escape {more : List Char} (escape : readEscape s = .ok (c, more)) :
    readText ('\\' :: s) = (readText more).map fun (text, last) => (c :: text, last) := by
  rw [readText]
  split
  · next failed => rw [escape] at failed; cases failed
  · next read => rw [escape] at read; cases read; rfl

theorem readText_plain (plain : Plain c) :
    readText (c :: s) = (readText s).map fun (text, last) => (c :: text, last) := by
  obtain ⟨quote, escape, printed⟩ := plain_iff.mp plain
  rw [readText, if_neg (by simp [printed])]
  · exact quote
  · exact escape

/-- A string that is wanted is read exactly when the grammar says what it spells. -/
theorem readText_iff {text : List Char} : readText s = .ok (text, rest) ↔ Spells s text rest := by
  constructor
  · intro read
    fun_induction readText s generalizing text with
    | case1 => cases read
    | case2 tail =>
      cases read
      exact Spells.close
    | case3 => cases read
    | case4 tail c more escape _ ih =>
      obtain ⟨⟨inner, last⟩, read, same⟩ := exists_of_map_ok read
      cases same
      have spells := ih read
      rcases readEscape_iff.mp escape with ⟨letter, short, rfl⟩ | ⟨digits, rfl, hex⟩ |
        ⟨first, second, lead, trail, halves, rfl, leading, trailing⟩
      · exact Spells.short short spells
      · exact Spells.code hex spells
      · exact Spells.pair halves leading trailing spells
    | case5 => cases read
    | case6 c tail quote escape printed ih =>
      obtain ⟨⟨inner, last⟩, read, same⟩ := exists_of_map_ok read
      cases same
      have plain := plain_iff.mpr ⟨quote, escape, Bool.eq_false_iff.mpr printed⟩
      exact Spells.plain plain (ih read)
  · intro spells
    induction spells with
    | close => rw [readText]
    | plain self _ ih => rw [readText_plain self, ih]; rfl
    | short escape _ ih =>
      rw [readText_escape (readEscape_iff.mpr (Or.inl ⟨_, escape, rfl⟩)), ih]
      rfl
    | code value _ ih =>
      rw [readText_escape (readEscape_iff.mpr (Or.inr (Or.inl ⟨_, rfl, value⟩))), ih]
      rfl
    | pair halves leading trailing _ ih =>
      have escape := readEscape_iff.mpr
        (Or.inr (Or.inr ⟨_, _, _, _, halves, rfl, leading, trailing⟩))
      rw [readText_escape escape, ih]
      rfl

theorem skipText_escape {more : List Char} (escape : skipEscape s = .ok more) :
    skipText ('\\' :: s) = skipText more := by
  rw [skipText]
  split
  · next failed => rw [escape] at failed; cases failed
  · next skip => rw [escape] at skip; cases skip; rfl

theorem skipText_plain (plain : Plain c) : skipText (c :: s) = skipText s := by
  obtain ⟨quote, escape, printed⟩ := plain_iff.mp plain
  rw [skipText, if_neg (by simp [printed])]
  · exact quote
  · exact escape

/-- A string that is passed over need only be one. -/
theorem skipText_iff : skipText s = .ok rest ↔ Quoted s rest := by
  constructor
  · intro skip
    fun_induction skipText s with
    | case1 => cases skip
    | case2 tail =>
      cases skip
      exact Quoted.close
    | case3 => cases skip
    | case4 tail more escape _ ih =>
      rcases skipEscape_iff.mp escape with ⟨letter, c, short, rfl⟩ | ⟨digits, n, rfl, hex⟩
      · exact Quoted.short short (ih skip)
      · exact Quoted.code hex (ih skip)
    | case5 => cases skip
    | case6 c tail quote escape printed ih =>
      have plain := plain_iff.mpr ⟨quote, escape, Bool.eq_false_iff.mpr printed⟩
      exact Quoted.plain plain (ih skip)
  · intro quoted
    induction quoted with
    | close => rw [skipText]
    | plain self _ ih => rw [skipText_plain self, ih]
    | short escape _ ih =>
      rw [skipText_escape (skipEscape_iff.mpr (Or.inl ⟨_, _, escape, rfl⟩)), ih]
    | code value _ ih =>
      rw [skipText_escape (skipEscape_iff.mpr (Or.inr ⟨_, _, rfl, value⟩)), ih]

end Strings

end MetricCatalog.Json
