import MetricCatalog.Proofs.Toml.Grammar
import MetricCatalog.Toml.Text

/-!
# Lines end and strings are read as the grammar says

The readers of line ends and of basic strings accept what the grammar describes. A value
may only stand where something ends it: that keeps an empty string with a quote after it from being
taken for the opening of a longer one.
-/

namespace MetricCatalog.Toml

open Text

variable {s t rest : List Char} {c : Char}

section Ends

/-- What ends a value: the end of the text, a blank, a comment, a line end, or what follows it in a
table between braces. -/
def Ends (rest : List Char) : Prop :=
  ∀ c t, rest = c :: t → c ∈ [' ', '\t', '#', '\n', '\r', ',', '}']

theorem Ends.of_cons (known : c ∈ [' ', '\t', '#', '\n', '\r', ',', '}']) : Ends (c :: rest) := by
  rintro d t same
  cases same
  exact known

theorem Ends.of_blanks (blanks : Blanks s (c :: rest)) (known : c ∈ [',', '}']) : Ends s := by
  obtain ⟨d, t, rfl, here⟩ := blanks.head
  apply Ends.of_cons
  simp only [List.mem_cons, List.not_mem_nil, or_false] at known here
  rcases here with rfl | rfl | rfl
  · rcases known with rfl | rfl <;> simp
  · simp
  · simp

theorem Newline.ends (newline : Newline s rest) : Ends s := by
  rcases newline with rfl | rfl | ⟨rfl, -⟩
  · exact .of_cons (by simp)
  · exact .of_cons (by simp)
  · rintro c t same
    cases same

theorem LineEnd.ends (ending : LineEnd s rest) : Ends s := by
  obtain ⟨t, u, ⟨skipped, all, rfl⟩, comment, newline⟩ := ending
  cases skipped with
  | nil =>
    rcases comment with rfl | ⟨text, -, rfl⟩
    · exact newline.ends
    · exact .of_cons (by simp)
  | cons d more =>
    apply Ends.of_cons
    have blank := all d List.mem_cons_self
    simp only [List.mem_cons, List.not_mem_nil, or_false] at blank
    rcases blank with rfl | rfl <;> simp

end Ends

section LineEnd

theorem isPlain_iff : isPlain c = true ↔ Visible c := by
  simp [isPlain, Visible]

theorem skipComment_eq (comment : Comment s t) (newline : Newline t rest) : skipComment s = t := by
  rcases comment with rfl | ⟨text, all, rfl⟩
  · rcases newline with rfl | rfl | ⟨rfl, -⟩ <;> rfl
  · change (text ++ t).dropWhile isPlain = t
    rw [List.dropWhile_append_of_pos fun c here => isPlain_iff.mpr (all c here)]
    rcases newline with rfl | rfl | ⟨rfl, -⟩ <;> rfl

/-- A line end begins with a character of its own, or nothing is left. -/
theorem LineEnd.head (ending : LineEnd s rest) :
    skipBlanks whitespace s = [] ∧ rest = [] ∨
      ∃ c t, skipBlanks whitespace s = c :: t ∧ c ∈ ['#', '\n', '\r'] ∧ rest.length < s.length := by
  obtain ⟨t, u, blanks, comment, newline⟩ := ending
  have shorter := blanks.length_le
  rcases comment with rfl | ⟨text, -, rfl⟩
  · rcases newline with rfl | rfl | ⟨rfl, rfl⟩
    · refine Or.inr ⟨_, _, blanks.skip_cons rfl, by simp, ?_⟩
      simp only [List.length_cons] at shorter
      omega
    · refine Or.inr ⟨_, _, blanks.skip_cons rfl, by simp, ?_⟩
      simp only [List.length_cons] at shorter
      omega
    · exact Or.inl ⟨blanks.skip, rfl⟩
  · have fewer : rest.length ≤ u.length := by
      rcases newline with rfl | rfl | ⟨rfl, rfl⟩
      · exact Nat.le_succ _
      · exact Nat.le_add_right _ 2
      · exact Nat.le_refl _
    refine Or.inr ⟨_, _, blanks.skip_cons rfl, by simp, ?_⟩
    simp only [List.length_append, List.length_cons] at shorter
    omega

theorem LineEnd.length_le (ending : LineEnd s rest) : rest.length ≤ s.length := by
  rcases ending.head with ⟨-, rfl⟩ | ⟨c, t, -, -, shorter⟩
  · exact Nat.zero_le _
  · exact Nat.le_of_lt shorter

theorem takeLineEnd_eq (ending : LineEnd s rest) : takeLineEnd s = some rest := by
  obtain ⟨t, u, blanks, comment, newline⟩ := ending
  have token : skipBlanks whitespace t = t := by
    rcases comment with rfl | ⟨text, -, rfl⟩
    · rcases newline with rfl | rfl | ⟨rfl, -⟩ <;> rfl
    · rfl
  rw [takeLineEnd, blanks.skip, token, skipComment_eq comment newline]
  rcases newline with rfl | rfl | ⟨rfl, rfl⟩ <;> rfl

end LineEnd

section Strings

theorem readFixed_digits {digits : List Char} (all : ∀ d ∈ digits, (Text.hexValue? d).isSome)
    (value : Nat) :
    readFixed Text.hexValue? 16 digits.length value (digits ++ rest) =
      some (digits.foldl (fun value d => value * 16 + Text.digitValue d) value, rest) := by
  induction digits generalizing value with
  | nil => rfl
  | cons d digits ih =>
    obtain ⟨known, others⟩ := List.forall_mem_cons.mp all
    obtain ⟨v, found⟩ := Option.isSome_iff_exists.mp known
    have digit : Text.digitValue d = v := by rw [Text.digitValue, found, Option.getD_some]
    rw [List.length_cons, List.cons_append, readFixed, found]
    dsimp only
    rw [ih others, List.foldl_cons, digit]

theorem readCodePoint_eq {count : Nat} (spelled : CodePoint count s c rest) :
    readCodePoint count s = some (c, rest) := by
  obtain ⟨digits, rfl, all, value, rfl⟩ := spelled
  have read := @readFixed_digits rest digits all 0
  have valid : c.toNat.isValidChar := c.valid
  rw [← Text.digitsValue, ← value] at read
  rw [readCodePoint, read]
  dsimp only
  rw [if_pos valid, Char.ofNat_toNat]

theorem readEscape_code {mark : Char} {count : Nat} (known : (mark, count) ∈ [('u', 4), ('U', 8)])
    (spelled : CodePoint count s c rest) : readEscape (mark :: s) = some (c, rest) := by
  simp only [List.mem_cons, Prod.mk.injEq, List.not_mem_nil, or_false] at known
  rcases known with ⟨rfl, rfl⟩ | ⟨rfl, rfl⟩
  · exact readCodePoint_eq spelled
  · exact readCodePoint_eq spelled

theorem readEscape_short {letter : Char} (escape : (letter, c) ∈ shortEscapes) :
    readEscape (letter :: rest) = some (c, rest) := by
  simp only [shortEscapes, List.mem_cons, Prod.mk.injEq, List.not_mem_nil, or_false] at escape
  rcases escape with ⟨rfl, rfl⟩ | ⟨rfl, rfl⟩ | ⟨rfl, rfl⟩ | ⟨rfl, rfl⟩ | ⟨rfl, rfl⟩ |
    ⟨rfl, rfl⟩ | ⟨rfl, rfl⟩ <;> rfl

theorem readBasic_escape {more : List Char} (escape : readEscape s = some (c, more)) :
    readBasic ('\\' :: s) = (readBasic more).map (prepend c) := by
  rw [readBasic]
  split
  · next failed => rw [escape] at failed; cases failed
  · next read => rw [escape] at read; cases read; rfl

theorem readBasic_eq {text : List Char} (spells : Spells s text rest) :
    readBasic s = some (text, rest) := by
  induction spells with
  | close => rw [readBasic]
  | plain self noQuote noEscape _ ih =>
    rw [readBasic, if_pos (isPlain_iff.mpr self), ih]
    · rfl
    · exact noQuote
    · exact noEscape
  | short escape _ ih =>
    rw [readBasic_escape (readEscape_short escape), ih]
    rfl
  | code known value _ ih =>
    rw [readBasic_escape (readEscape_code known value), ih]
    rfl

theorem Spells.length_lt {text : List Char} (spells : Spells s text rest) :
    rest.length < s.length := by
  induction spells with
  | close => exact Nat.lt_succ_self _
  | plain _ _ _ _ ih => exact Nat.lt_succ_of_lt ih
  | short _ _ ih => exact Nat.lt_succ_of_lt (Nat.lt_succ_of_lt ih)
  | code _ value _ ih =>
    obtain ⟨digits, -, -, -, rfl⟩ := value
    simp only [List.length_cons, List.length_append]
    omega

/-- Only the empty string has a quote right after its opening one. -/
theorem readText_eq {text : List Char} (spells : Spells s text rest) (ends : Ends rest) :
    readText ('"' :: s) = some (text, rest) := by
  have plain : ∀ t, s ≠ '"' :: '"' :: t := by
    rintro t rfl
    cases spells with
    | close => exact absurd (ends _ _ rfl) (by decide)
    | plain _ noQuote => exact noQuote rfl
  rw [readText]
  · exact readBasic_eq spells
  · exact plain

theorem StringText.length_lt {value : String} (text : StringText s value rest) :
    rest.length < s.length := by
  obtain ⟨t, blanks, spells⟩ := text
  exact Nat.lt_trans spells.length_lt blanks.length_lt

end Strings

end MetricCatalog.Toml
