import MetricCatalog.Json.Number
import MetricCatalog.Proofs.Json.Text

/-!
# Numbers are read by the grammar

A number is read as far as it goes: each part is read exactly when it stands there and the next
character is none of its own. What follows a number in a text, a delimiter, is never its own, so
reading a number off a text and the grammar agree; for an integer they agree on the value.
-/

namespace MetricCatalog.Json

variable {s t rest : List Char}

theorem Delimited.of_cons {c : Char} (delimiter : c ∈ [' ', '\n', '\t', '\r', ',', ']', '}']) :
    Delimited (c :: rest) := by
  rintro d t same
  cases same
  exact delimiter

theorem Delimited.of_blank {c : Char} (blank : c ∈ [' ', '\n', '\t', '\r']) :
    Delimited (c :: rest) :=
  of_cons (List.mem_append_left [',', ']', '}'] blank)

theorem Delimited.of_blanks {c : Char} (blanks : Blanks s (c :: rest))
    (delimiter : c ∈ [',', ']', '}']) : Delimited s := by
  obtain ⟨skipped, all, rfl⟩ := blanks
  cases skipped with
  | nil => exact of_cons (List.mem_append_right [' ', '\n', '\t', '\r'] delimiter)
  | cons d skipped => exact of_blank (all d List.mem_cons_self)

theorem Delimited.head_ne {c : Char} (delimited : Delimited (c :: rest)) :
    c ≠ '.' ∧ c ≠ 'e' ∧ c ≠ 'E' ∧ c.isDigit = false := by
  have delimiter := delimited c rest rfl
  simp only [List.mem_cons, List.not_mem_nil, or_false] at delimiter
  rcases delimiter with rfl | rfl | rfl | rfl | rfl | rfl | rfl <;> decide

theorem Digits.head_isDigit {d : Char} {digits : List Char} (all : Digits digits)
    (split : digits ++ rest = d :: t) : d.isDigit = true := by
  obtain ⟨some, all⟩ := all
  cases digits with
  | nil => exact absurd rfl some
  | cons c tail =>
    cases split
    exact all d List.mem_cons_self

namespace Numeral

/-- The rest does not go on with a digit. -/
def Stops (rest : List Char) : Prop := rest.head?.any Char.isDigit = false

theorem Stops.of_delimited (delimited : Delimited rest) : Stops rest := by
  cases rest with
  | nil => rfl
  | cons c t => exact delimited.head_ne.2.2.2

theorem readDigits_iff {atEnd : Problem} {digits : List Char} :
    readDigits atEnd s = .ok (digits, rest) ↔ Digits digits ∧ s = digits ++ rest ∧ Stops rest := by
  rw [readDigits]
  constructor
  · intro read
    split at read
    · cases read
    · next some =>
      cases read
      refine ⟨⟨some, fun d here => List.all_eq_true.mp List.all_takeWhile d here⟩,
        List.takeWhile_append_dropWhile.symm, ?_⟩
      have first := List.head?_dropWhile_not Char.isDigit s
      rw [Stops]
      cases following : (s.dropWhile Char.isDigit).head? with
      | none => rfl
      | some c =>
        rw [following] at first
        simpa using first
  · rintro ⟨⟨some, all⟩, rfl, stops⟩
    have none : rest.takeWhile Char.isDigit = [] ∧ rest.dropWhile Char.isDigit = rest := by
      cases rest with
      | nil => exact ⟨rfl, rfl⟩
      | cons c t =>
        rw [Stops, List.head?_cons, Option.any_some] at stops
        simp [stops]
    rw [List.takeWhile_append_of_pos all, List.dropWhile_append_of_pos all, none.1, none.2,
      List.append_nil]
    exact if_neg some

theorem readWhole_iff {atEnd : Problem} {digits : List Char} :
    readWhole atEnd s = .ok (digits, rest) ↔ Whole digits ∧ s = digits ++ rest ∧ Stops rest := by
  constructor
  · intro read
    rw [readWhole.eq_def] at read
    split at read
    · next tail =>
      split at read
      · cases read
      · next stops =>
        cases read
        exact ⟨⟨⟨by simp, List.forall_mem_singleton.mpr rfl⟩, fun _ => rfl⟩, rfl,
          Bool.eq_false_iff.mpr stops⟩
    · next other =>
      obtain ⟨all, rfl, stops⟩ := readDigits_iff.mp read
      refine ⟨⟨all, fun zero => ?_⟩, rfl, stops⟩
      obtain ⟨tail, rfl⟩ := List.head?_eq_some_iff.mp zero
      exact absurd rfl (other (tail ++ rest))
  · rintro ⟨⟨all, single⟩, rfl, stops⟩
    by_cases zero : digits.head? = some '0'
    · rw [single zero, List.singleton_append, readWhole]
      exact if_neg (Bool.eq_false_iff.mp stops)
    · have read : readDigits atEnd (digits ++ rest) = .ok (digits, rest) :=
        readDigits_iff.mpr ⟨all, rfl, stops⟩
      rw [readWhole.eq_def]
      split
      · next tail same =>
        cases digits with
        | nil => exact absurd rfl all.1
        | cons d ds =>
          cases same
          exact absurd rfl zero
      · exact read

theorem fraction_of_read {atEnd : Problem} {fraction : Option (List Char)}
    (read : readFraction atEnd s = .ok (fraction, rest)) :
    ∃ text, Fraction text ∧ s = text ++ rest ∧ (fraction = none → text = []) := by
  rw [readFraction.eq_def] at read
  split at read
  · next tail =>
    obtain ⟨⟨digits, last⟩, read, same⟩ := exists_of_map_ok read
    cases same
    obtain ⟨all, rfl, -⟩ := readDigits_iff.mp read
    exact ⟨'.' :: digits, Or.inr ⟨digits, all, rfl⟩, rfl, fun none => by cases none⟩
  · cases read
    exact ⟨[], Or.inl rfl, rfl, fun _ => rfl⟩

theorem read_of_fraction (atEnd : Problem) {text : List Char} (fraction : Fraction text)
    (stops : Stops rest) (point : ∀ t, rest ≠ '.' :: t) :
    ∃ found, readFraction atEnd (text ++ rest) = .ok (found, rest) ∧
      (text = [] → found = none) := by
  rcases fraction with rfl | ⟨digits, all, rfl⟩
  · refine ⟨none, ?_, fun _ => rfl⟩
    rw [List.nil_append, readFraction.eq_def]
    split
    · exact absurd rfl (point _)
    · rfl
  · have read : readDigits atEnd (digits ++ rest) = .ok (digits, rest) :=
      readDigits_iff.mpr ⟨all, rfl, stops⟩
    refine ⟨some digits, ?_, ?_⟩
    · rw [List.cons_append, readFraction, read]
      rfl
    · intro empty
      cases empty

theorem sign_of_splitSign (s : List Char) :
    ∃ sign ∈ [[], ['+'], ['-']], s = sign ++ (splitSign s).2 := by
  rw [splitSign.eq_def]
  split
  · exact ⟨['+'], by simp, rfl⟩
  · exact ⟨['-'], by simp, rfl⟩
  · exact ⟨[], by simp, rfl⟩

theorem splitSign_of_sign {sign digits : List Char} (known : sign ∈ [[], ['+'], ['-']])
    (all : Digits digits) : (splitSign (sign ++ (digits ++ rest))).2 = digits ++ rest := by
  simp only [List.mem_cons, List.not_mem_nil, or_false] at known
  rcases known with rfl | rfl | rfl
  · rw [List.nil_append, splitSign.eq_def]
    split
    · next plus => exact absurd (all.head_isDigit plus) (by decide)
    · next minus => exact absurd (all.head_isDigit minus) (by decide)
    · rfl
  · rfl
  · rfl

theorem exponent_of_read {atEnd : Problem} {exponent : Option (Bool × List Char)}
    (read : readExponent atEnd s = .ok (exponent, rest)) :
    ∃ text, Exponent text ∧ s = text ++ rest ∧ (exponent = none → text = []) := by
  rw [readExponent.eq_def] at read
  split at read
  · next e tail =>
    split at read
    · next letter =>
      obtain ⟨⟨digits, last⟩, read, same⟩ := exists_of_map_ok read
      cases same
      obtain ⟨all, split, -⟩ := readDigits_iff.mp read
      obtain ⟨sign, known, spelled⟩ := sign_of_splitSign tail
      refine ⟨e :: sign ++ digits, Or.inr ⟨e, by simpa using letter, sign, known, digits, all, rfl⟩,
        ?_, fun none => by cases none⟩
      rw [List.append_assoc, ← split, List.cons_append, ← spelled]
    · cases read
      exact ⟨[], Or.inl rfl, rfl, fun _ => rfl⟩
  · cases read
    exact ⟨[], Or.inl rfl, rfl, fun _ => rfl⟩

theorem read_of_exponent (atEnd : Problem) {text : List Char} (exponent : Exponent text)
    (delimited : Delimited rest) :
    ∃ found, readExponent atEnd (text ++ rest) = .ok (found, rest) ∧
      (text = [] → found = none) := by
  rcases exponent with rfl | ⟨e, letter, sign, known, digits, all, rfl⟩
  · refine ⟨none, ?_, fun _ => rfl⟩
    rw [List.nil_append, readExponent.eq_def]
    cases rest with
    | nil => rfl
    | cons c t => exact if_neg (not_or.mpr ⟨delimited.head_ne.2.1, delimited.head_ne.2.2.1⟩)
  · have read : readDigits atEnd (digits ++ rest) = .ok (digits, rest) :=
      readDigits_iff.mpr ⟨all, rfl, .of_delimited delimited⟩
    refine ⟨some ((splitSign (sign ++ (digits ++ rest))).1, digits), ?_, ?_⟩
    · rw [List.append_assoc, List.cons_append, readExponent, if_pos (by simpa using letter)]
      dsimp only
      rw [splitSign_of_sign known all, read]
      rfl
    · intro empty
      cases empty

theorem stops_of_exponent {text : List Char} (exponent : Exponent text)
    (delimited : Delimited rest) :
    Stops (text ++ rest) ∧ ∀ t, text ++ rest ≠ '.' :: t := by
  rcases exponent with rfl | ⟨e, letter, sign, -, digits, -, rfl⟩
  · refine ⟨.of_delimited delimited, ?_⟩
    rintro t rfl
    exact delimited.head_ne.1 rfl
  · simp only [List.mem_cons, List.not_mem_nil, or_false] at letter
    rcases letter with rfl | rfl
    · exact ⟨rfl, fun t same => by cases same⟩
    · exact ⟨rfl, fun t same => by cases same⟩

theorem stops_of_fraction {text : List Char} (fraction : Fraction text) (stops : Stops rest) :
    Stops (text ++ rest) := by
  rcases fraction with rfl | ⟨digits, -, rfl⟩
  · exact stops
  · rfl

theorem minus_of_splitMinus (s : List Char) :
    s = (if (splitMinus s).1 then ['-'] else []) ++ (splitMinus s).2 := by
  rw [splitMinus.eq_def]
  split <;> rfl

theorem splitMinus_of_minus {minus digits : List Char} (known : minus ∈ [[], ['-']])
    (all : Digits digits) :
    splitMinus (minus ++ (digits ++ rest)) = (decide (minus = ['-']), digits ++ rest) := by
  simp only [List.mem_cons, List.not_mem_nil, or_false] at known
  rcases known with rfl | rfl
  · rw [List.nil_append, splitMinus.eq_def]
    split
    · next sign => exact absurd (all.head_isDigit sign) (by decide)
    · rfl
  · rfl

theorem parts_of_read {atEnd : Problem} {n : Numeral}
    (read : Numeral.read atEnd s = .ok (n, rest)) :
    ∃ fraction exponent, Whole n.whole ∧ Fraction fraction ∧ Exponent exponent ∧
      (n.fraction = none → fraction = []) ∧ (n.exponent = none → exponent = []) ∧
      s = (if n.negative then ['-'] else []) ++ n.whole ++ fraction ++ exponent ++ rest := by
  obtain ⟨⟨whole, s₁⟩, readWhole, read⟩ := exists_of_bind_ok read
  obtain ⟨⟨fraction, s₂⟩, readFraction, read⟩ := exists_of_bind_ok read
  obtain ⟨⟨exponent, s₃⟩, readExponent, read⟩ := exists_of_bind_ok read
  cases read
  obtain ⟨hw, spelled, -⟩ := readWhole_iff.mp readWhole
  obtain ⟨ft, hf, rfl, noFraction⟩ := fraction_of_read readFraction
  obtain ⟨et, he, rfl, noExponent⟩ := exponent_of_read readExponent
  refine ⟨ft, et, hw, hf, he, noFraction, noExponent, ?_⟩
  have split := minus_of_splitMinus s
  rw [spelled] at split
  simpa using split

theorem read_of_parts (atEnd : Problem) {minus whole fraction exponent : List Char}
    (known : minus ∈ [[], ['-']]) (hw : Whole whole) (hf : Fraction fraction)
    (he : Exponent exponent) (delimited : Delimited rest) :
    ∃ f e, Numeral.read atEnd (minus ++ whole ++ fraction ++ exponent ++ rest) =
        .ok (⟨minus = ['-'], whole, f, e⟩, rest) ∧
      (fraction = [] → f = none) ∧ (exponent = [] → e = none) := by
  obtain ⟨stops, point⟩ := stops_of_exponent he delimited
  obtain ⟨f, readFraction, noFraction⟩ := read_of_fraction atEnd hf stops point
  obtain ⟨e, readExponent, noExponent⟩ := read_of_exponent atEnd he delimited
  refine ⟨f, e, ?_, noFraction, noExponent⟩
  have readWhole : readWhole atEnd (whole ++ (fraction ++ (exponent ++ rest))) =
      .ok (whole, fraction ++ (exponent ++ rest)) :=
    readWhole_iff.mpr ⟨hw, rfl, stops_of_fraction hf stops⟩
  rw [List.append_assoc, List.append_assoc, List.append_assoc, Numeral.read,
    splitMinus_of_minus known hw.1]
  dsimp only
  rw [readWhole]
  dsimp only [bind, Except.bind]
  rw [readFraction]
  dsimp only
  rw [readExponent]
  rfl

theorem le_foldl (k : Nat) (digits : List Char) :
    k ≤ digits.foldl (fun value d => value * 10 + Text.digitValue d) k := by
  induction digits generalizing k with
  | nil => exact Nat.le_refl k
  | cons d digits ih =>
    have first := ih (k * 10 + Text.digitValue d)
    rw [List.foldl_cons]
    omega

theorem absorb_iff {k m : Nat} {digits : List Char} (small : k < UInt64.size) :
    absorb k digits = (m, []) ↔
      m = digits.foldl (fun value d => value * 10 + Text.digitValue d) k ∧ m < UInt64.size := by
  induction digits generalizing k with
  | nil =>
    rw [absorb, List.foldl_nil, Prod.mk.injEq]
    constructor
    · rintro ⟨rfl, -⟩
      exact ⟨rfl, small⟩
    · rintro ⟨rfl, -⟩
      exact ⟨rfl, rfl⟩
  | cons d digits ih =>
    rw [absorb, List.foldl_cons]
    split
    · next fits => exact ih fits
    · next large =>
      constructor
      · intro same
        cases same
      · rintro ⟨same, fits⟩
        have grows := le_foldl (k * 10 + Text.digitValue d) digits
        omega

theorem integer_iff {n : Numeral} {v : Int} :
    n.integer? = some v ↔ n.fraction = none ∧ n.exponent = none ∧
      Text.digitsValue 10 n.whole < UInt64.size ∧
      if n.negative then 0 < Text.digitsValue 10 n.whole ∧
        Int64.minValue.toInt ≤ -(Text.digitsValue 10 n.whole : Int) ∧
        v = -(Text.digitsValue 10 n.whole : Int)
      else v = Text.digitsValue 10 n.whole := by
  have zero : 0 < UInt64.size := by decide
  constructor
  · intro value
    rw [integer?.eq_def] at value
    split at value
    · next magnitude noFraction noExponent absorbed =>
      obtain ⟨same, fits⟩ := (absorb_iff zero).mp absorbed
      rw [← Text.digitsValue] at same
      subst same
      refine ⟨noFraction, noExponent, fits, ?_⟩
      split at value
      · next negative =>
        split at value
        · next range =>
          cases value
          rw [if_pos negative]
          exact ⟨range.1, range.2, rfl⟩
        · cases value
      · next positive =>
        cases value
        rw [if_neg positive]
    · cases value
  · rintro ⟨noFraction, noExponent, fits, value⟩
    have absorbed : absorb 0 n.whole = (Text.digitsValue 10 n.whole, []) :=
      (absorb_iff zero).mpr ⟨rfl, fits⟩
    rw [integer?, noFraction, noExponent, absorbed]
    dsimp only
    split
    · next negative =>
      rw [if_pos negative] at value
      rw [if_pos ⟨value.1, value.2.1⟩, value.2.2]
    · next positive =>
      rw [if_neg positive] at value
      rw [value]

end Numeral

open Numeral

theorem numeric_of_skipNumber (skip : skipNumber s = .ok rest) : Numeric s rest := by
  obtain ⟨⟨n, last⟩, read, rfl⟩ := exists_of_map_ok skip
  obtain ⟨fraction, exponent, hw, hf, he, -, -, spelled⟩ := parts_of_read read
  refine ⟨_, ?_, n.whole, fraction, exponent, hw, hf, he, spelled⟩
  split <;> simp

theorem skipNumber_of_numeric (numeric : Numeric s rest) (delimited : Delimited rest) :
    skipNumber s = .ok rest := by
  obtain ⟨minus, known, whole, fraction, exponent, hw, hf, he, rfl⟩ := numeric
  obtain ⟨f, e, read, -, -⟩ := read_of_parts .badNumber known hw hf he delimited
  rw [skipNumber, read]
  rfl

/-- Digits spell zero only as the single zero. -/
theorem Whole.pos {digits : List Char} (whole : Whole digits) (other : digits ≠ ['0']) :
    0 < Text.digitsValue 10 digits := by
  obtain ⟨⟨some, all⟩, single⟩ := whole
  cases digits with
  | nil => exact absurd rfl some
  | cons d tail =>
    have first : 0 < Text.digitValue d := by
      have digit := all d List.mem_cons_self
      have nonzero : d ≠ '0' := fun zero => other (single (by rw [zero]; rfl))
      have range : '0' ≤ d ∧ d ≤ '9' := by
        rwa [Char.isDigit, Bool.and_eq_true, decide_eq_true_iff, decide_eq_true_iff] at digit
      have low : '0'.toNat ≤ d.toNat := range.1
      have more : d.toNat ≠ '0'.toNat := fun same => nonzero (Char.toNat_inj.mp same)
      rw [Text.digitValue, Text.hexValue?, if_pos range, Option.getD_some]
      omega
    have grows := le_foldl (0 * 10 + Text.digitValue d) tail
    rw [Text.digitsValue, List.foldl_cons]
    omega

theorem readNumber_of_digits {minus digits : List Char} (known : minus ∈ [[], ['-']])
    (whole : Whole digits) (delimited : Delimited rest) {v : Int}
    (value : (⟨minus = ['-'], digits, none, none⟩ : Numeral).integer? = some v) :
    readNumber (minus ++ digits ++ rest) = .ok (.integer v, rest) := by
  obtain ⟨f, e, read, noFraction, noExponent⟩ :=
    read_of_parts .endInValue known whole (Or.inl rfl) (Or.inl rfl) delimited
  rw [List.append_nil, List.append_nil, noFraction rfl, noExponent rfl] at read
  rw [readNumber, read]
  dsimp only [bind, Except.bind]
  rw [value]
  rfl

/-- The numbers that are read as integers of 64 bits with a sign. -/
theorem readNumber_integer_iff (delimited : Delimited rest) {n : Int64} :
    readNumber s = .ok (.integer n.toInt, rest) ↔ Integer s n rest := by
  have low := n.minValue_le_toInt
  have high := n.toInt_lt
  constructor
  · intro read
    obtain ⟨⟨numeral, last⟩, read, value⟩ := exists_of_bind_ok read
    dsimp only at value
    split at value
    · next v integer =>
      cases value
      obtain ⟨fraction, exponent, hw, hf, he, noFraction, noExponent, spelled⟩ :=
        parts_of_read read
      obtain ⟨none, none', -, value⟩ := integer_iff.mp integer
      rw [noFraction none, noExponent none', List.append_nil, List.append_nil] at spelled
      refine ⟨numeral.whole, hw, ?_⟩
      split at value
      · next negative =>
        rw [if_pos negative] at spelled
        refine Or.inr ⟨spelled, fun zero => ?_, value.2.2⟩
        rw [zero] at value
        exact absurd value.1 (by decide)
      · next positive =>
        rw [if_neg positive] at spelled
        exact Or.inl ⟨spelled, value⟩
    · obtain ⟨x, -, value⟩ := exists_of_bind_ok value
      cases value
  · rintro ⟨digits, whole, spelled⟩
    have least : Int64.minValue.toInt = -2 ^ 63 := rfl
    have fits : Text.digitsValue 10 digits < UInt64.size := by
      have size : UInt64.size = 2 ^ 64 := rfl
      omega
    rcases spelled with ⟨rfl, value⟩ | ⟨rfl, other, value⟩
    · refine readNumber_of_digits (List.mem_cons_self : [] ∈ [[], ['-']]) whole delimited ?_
      exact integer_iff.mpr ⟨rfl, rfl, fits, value⟩
    · refine readNumber_of_digits (by simp : ['-'] ∈ [[], ['-']]) whole delimited ?_
      exact integer_iff.mpr ⟨rfl, rfl, fits, whole.pos other, value ▸ low, value⟩

/-- No integer is read that lies below 64 bits. -/
theorem minValue_le_of_readNumber {v : Int} (read : readNumber s = .ok (.integer v, rest)) :
    Int64.minValue.toInt ≤ v := by
  obtain ⟨⟨numeral, last⟩, read, value⟩ := exists_of_bind_ok read
  dsimp only at value
  split at value
  · next w integer =>
    cases value
    obtain ⟨-, -, -, value⟩ := integer_iff.mp integer
    split at value
    · rw [value.2.2]
      exact value.2.1
    · rw [value]
      exact Int.le_trans (by decide) (Int.natCast_nonneg _)
  · obtain ⟨x, -, value⟩ := exists_of_bind_ok value
    cases value

theorem Integer.numeric {n : Int64} (integer : Integer s n rest) : Numeric s rest := by
  obtain ⟨digits, whole, ⟨rfl, -⟩ | ⟨rfl, -, -⟩⟩ := integer
  · exact ⟨[], by simp, digits, [], [], whole, Or.inl rfl, Or.inl rfl, by simp⟩
  · exact ⟨['-'], by simp, digits, [], [], whole, Or.inl rfl, Or.inl rfl, by simp⟩

end MetricCatalog.Json
