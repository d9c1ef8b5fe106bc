import Mathlib.Data.List.TakeWhile
import MetricCatalog.Proofs.Text.Lexeme
import MetricCatalog.Proofs.Toml.Text
import MetricCatalog.Toml.Moment
import MetricCatalog.Toml.Number

/-!
# Integers are read as the grammar says

Digits in groups are read up to the end of the integer, in each base. Before a number is read as
one, a moment is looked for; a moment shows itself by what follows its first digits, a hyphen or a
colon, and an integer has neither there.
-/

namespace MetricCatalog.Toml

variable {s t rest digits : List Char} {isDigit : Char → Bool}

section Digits

theorem Grouped.head (grouped : Grouped isDigit s digits rest) :
    ∃ d t, s = d :: t ∧ isDigit d = true := by
  cases grouped with
  | last digit => exact ⟨_, _, rfl, digit⟩
  | next digit => exact ⟨_, _, rfl, digit⟩
  | apart digit => exact ⟨_, _, rfl, digit⟩

theorem Grouped.length_lt (grouped : Grouped isDigit s digits rest) : rest.length < s.length := by
  induction grouped with
  | last => exact Nat.lt_succ_self _
  | next _ _ ih => exact Nat.lt_succ_of_lt ih
  | apart _ _ ih => exact Nat.lt_succ_of_lt (Nat.lt_succ_of_lt ih)

theorem readMoreDigits_of_digit (noMark : isDigit '_' = false) {d : Char} (digit : isDigit d) :
    readMoreDigits isDigit (d :: t) = readDigits isDigit (d :: t) := by
  have other : d ≠ '_' := by
    rintro rfl
    rw [noMark] at digit
    cases digit
  rw [readMoreDigits, readDigits, if_pos digit, if_pos digit]
  all_goals simp [other]

theorem readMoreDigits_end (stops : ∀ c u, t = c :: u → isDigit c = false ∧ c ≠ '_') :
    readMoreDigits isDigit t = some ([], t) := by
  cases t with
  | nil => rfl
  | cons c u =>
    obtain ⟨noDigit, other⟩ := stops c u rfl
    rw [readMoreDigits, if_neg (by simp [noDigit])]
    all_goals simp [other]

/-- Grouped digits are read to where they stop, whatever groups they stand in. -/
theorem readDigits_eq (noMark : isDigit '_' = false)
    (grouped : Grouped isDigit s digits rest)
    (stops : ∀ c u, rest = c :: u → isDigit c = false ∧ c ≠ '_') :
    readDigits isDigit s = some (digits, rest) := by
  induction grouped with
  | last digit =>
    rw [readDigits, if_pos digit, readMoreDigits_end stops]
    rfl
  | next digit more ih =>
    obtain ⟨d, t, rfl, first⟩ := more.head
    rw [readDigits, if_pos digit, readMoreDigits_of_digit noMark first, ih stops]
    rfl
  | apart digit more ih =>
    obtain ⟨d, t, rfl, first⟩ := more.head
    have same : readMoreDigits isDigit ('_' :: d :: t) = readDigits isDigit (d :: t) := by
      rw [readMoreDigits, readDigits]
    rw [readDigits, if_pos digit, same, ih stops]
    rfl

end Digits

section Ends

/-- The characters besides digits that say more of a number, or that it is a moment. -/
def numeralMarks : List Char := ['_', '.', 'e', 'E', '-', ':', 'x', 'o', 'b']

/-- Nothing that ends a value could belong to a number. -/
theorem Ends.not_numeral (ends : Ends rest) {c : Char} (same : rest = c :: t) :
    Text.hexValue? c = none ∧ c ∉ numeralMarks := by
  have known := ends c t same
  simp only [List.mem_cons, List.not_mem_nil, or_false] at known
  rcases known with rfl | rfl | rfl | rfl | rfl | rfl | rfl <;> decide

theorem Ends.not_mem (ends : Ends rest) {c : Char} (same : rest = c :: t) {marks : List Char}
    (known : marks ⊆ numeralMarks) : c ∉ marks :=
  fun here => (ends.not_numeral same).2 (known here)

theorem Ends.not_isDigit (ends : Ends rest) {c : Char} (same : rest = c :: t) :
    c.isDigit = false ∧ c ≠ '_' := by
  obtain ⟨noValue, others⟩ := ends.not_numeral same
  refine ⟨Bool.eq_false_iff.mpr fun digit => ?_, fun mark => others (by simp [mark, numeralMarks])⟩
  have value := Text.hexValue_of_isDigit digit
  rw [noValue] at value
  cases value

theorem Ends.dropWhile_isDigit (ends : Ends rest) : rest.dropWhile Char.isDigit = rest := by
  refine List.dropWhile_eq_self_iff.mpr fun some => ?_
  have first := ends.not_isDigit (List.drop_eq_getElem_cons some)
  exact ne_true_of_eq_false first.1

theorem Ends.not_isDigitOf (ends : Ends rest) (base : Nat) {c : Char} (same : rest = c :: t) :
    isDigitOf base c = false ∧ c ≠ '_' := by
  obtain ⟨noValue, others⟩ := ends.not_numeral same
  exact ⟨by rw [isDigitOf, noValue]; rfl, fun mark => others (by simp [mark, numeralMarks])⟩

end Ends

section Moments

/-- The text begins with digits and a hyphen or a colon after them. -/
def Clocked (s : List Char) : Prop :=
  ∃ digits mark t, digits ≠ [] ∧ (∀ d ∈ digits, d.isDigit = true) ∧ mark ∈ ['-', ':'] ∧
    s = digits ++ mark :: t

theorem isDigit_of_decimalValue {d : Char} {v : Nat} (value : Text.decimalValue? d = some v) :
    d.isDigit = true := by
  rw [Text.decimalValue?] at value
  split at value
  · next range =>
    simp only [Char.isDigit, Bool.and_eq_true, decide_eq_true_eq]
    exact range
  · cases value

theorem digits_of_readFixed {count value n : Nat}
    (read : readFixed Text.decimalValue? 10 count value s = some (n, rest)) :
    ∃ digits : List Char, digits.length = count ∧ (∀ d ∈ digits, d.isDigit = true) ∧
      s = digits ++ rest := by
  induction count generalizing value s with
  | zero =>
    cases read
    exact ⟨[], rfl, by simp, rfl⟩
  | succ count ih =>
    cases s with
    | nil => cases read
    | cons c t =>
      rw [readFixed] at read
      split at read
      · next found =>
        obtain ⟨digits, length, all, rfl⟩ := ih read
        exact ⟨c :: digits, by rw [List.length_cons, length],
          List.forall_mem_cons.mpr ⟨isDigit_of_decimalValue found, all⟩, rfl⟩
      · cases read

theorem eq_of_takeChar {c : Char} (take : takeChar c s = some rest) : s = c :: rest := by
  cases s with
  | nil => cases take
  | cons d t =>
    rw [takeChar] at take
    split at take
    · next same =>
      cases take
      rw [same]
    · cases take

theorem clocked_of_readFixed {count n : Nat} {mark : Char} (positive : 0 < count)
    (read : readFixed Text.decimalValue? 10 count 0 s = some (n, t)) (known : mark ∈ ['-', ':'])
    (take : takeChar mark t = some rest) : Clocked s := by
  obtain ⟨digits, length, all, rfl⟩ := digits_of_readFixed read
  refine ⟨digits, mark, rest, ?_, all, known, by rw [eq_of_takeChar take]⟩
  rintro rfl
  simp only [List.length_nil] at length
  omega

theorem clocked_of_readDate {date : Date × List Char} (read : readDate s = some date) :
    Clocked s := by
  obtain ⟨⟨year, t⟩, digits, read⟩ := Option.bind_eq_some_iff.mp read
  obtain ⟨u, mark, -⟩ := Option.bind_eq_some_iff.mp read
  exact clocked_of_readFixed (by decide) digits (by simp) mark

theorem clocked_of_readTime {time : Time × List Char} (read : readTime s = some time) :
    Clocked s := by
  obtain ⟨⟨hour, t⟩, hours, read⟩ := Option.bind_eq_some_iff.mp read
  obtain ⟨⟨n, u⟩, digits, range⟩ := Option.bind_eq_some_iff.mp hours
  obtain ⟨v, mark, -⟩ := Option.bind_eq_some_iff.mp read
  dsimp only at range
  split at range
  · cases range
    exact clocked_of_readFixed (by decide) digits (by simp) mark
  · cases range

theorem readMoment_eq_none (unclocked : ¬ Clocked s) : readMoment s = none := by
  have noDate : readDate s = none :=
    Option.eq_none_iff_forall_ne_some.mpr fun _ read => unclocked (clocked_of_readDate read)
  have noTime : readTime s = none :=
    Option.eq_none_iff_forall_ne_some.mpr fun _ read => unclocked (clocked_of_readTime read)
  rw [readMoment, noDate, noTime]
  rfl

theorem Clocked.dropWhile (clocked : Clocked s) :
    ∃ d t mark u, s = d :: t ∧ d.isDigit = true ∧ mark ∈ ['-', ':'] ∧
      s.dropWhile Char.isDigit = mark :: u := by
  obtain ⟨digits, mark, u, some, all, known, rfl⟩ := clocked
  obtain ⟨d, more, rfl⟩ := List.exists_cons_of_ne_nil some
  refine ⟨d, _, mark, u, rfl, all d List.mem_cons_self, known, ?_⟩
  rw [List.dropWhile_append_of_pos all]
  simp only [List.mem_cons, List.not_mem_nil, or_false] at known
  rcases known with rfl | rfl <;> rfl

theorem Grouped.not_clocked (grouped : Grouped Char.isDigit s digits rest) (ends : Ends rest) :
    ∀ mark u, s.dropWhile Char.isDigit = mark :: u → mark ∉ ['-', ':'] := by
  induction grouped with
  | last digit =>
    intro mark u after
    rw [List.dropWhile_cons_of_pos digit, ends.dropWhile_isDigit] at after
    exact ends.not_mem after (by decide)
  | next digit _ ih =>
    rw [List.dropWhile_cons_of_pos digit]
    exact ih ends
  | apart digit _ _ =>
    rw [List.dropWhile_cons_of_pos digit]
    intro mark u after
    cases after
    decide

theorem Whole.not_clocked {n : Nat} (whole : Whole s n rest) (ends : Ends rest) :
    ∀ mark u, s.dropWhile Char.isDigit = mark :: u → mark ∉ ['-', ':'] := by
  rcases whole with ⟨rfl, -⟩ | ⟨digits, grouped, -, -⟩
  · exact (Grouped.last rfl : Grouped Char.isDigit ('0' :: rest) ['0'] rest).not_clocked ends
  · exact grouped.not_clocked ends

theorem Integer.not_clocked {n : Int} (integer : Integer s n rest) (ends : Ends rest) :
    ¬ Clocked s := by
  intro clocked
  obtain ⟨d, t, mark, u, rfl, digit, known, after⟩ := clocked.dropWhile
  generalize whole : d :: t = s at *
  cases integer with
  | unsigned number => exact number.not_clocked ends mark u after known
  | plus => cases whole; cases digit
  | minus => cases whole; cases digit
  | @based letter base s _ rest letters =>
    simp only [List.mem_cons, Prod.mk.injEq, List.not_mem_nil, or_false] at letters
    rcases letters with ⟨rfl, rfl⟩ | ⟨rfl, rfl⟩ | ⟨rfl, rfl⟩ <;> cases after <;> simp at known

end Moments

section Integers

theorem readWhole_eq {n : Nat} (whole : Whole s n rest) (ends : Ends rest) :
    ∃ digits, readWhole s = some (digits, rest) ∧ n = Text.digitsValue 10 digits := by
  rcases whole with ⟨rfl, rfl⟩ | ⟨digits, grouped, noZero, rfl⟩
  · exact ⟨['0'], rfl, rfl⟩
  · refine ⟨digits, ?_, rfl⟩
    rw [readWhole]
    · exact readDigits_eq rfl grouped fun c u same => ends.not_isDigit same
    · rintro t rfl
      exact noZero rfl

theorem readFraction_end (ends : Ends rest) : readFraction rest = some ([], rest) := by
  rw [readFraction]
  rintro t rfl
  exact absurd (ends _ _ rfl) (by decide)

theorem readExponent_end (ends : Ends rest) : readExponent rest = some (none, rest) := by
  cases rest with
  | nil => rfl
  | cons c t =>
    have other : c ∉ ['e', 'E'] := ends.not_mem rfl (by decide)
    rw [readExponent, if_neg (by simpa using other)]

/-- What a sign makes of a number. -/
def signed (sign : Option Bool) (n : Nat) : Int := if sign = some true then -(n : Int) else n

theorem readDecimal_eq {n : Nat} {sign : Option Bool} (whole : Whole s n rest) (ends : Ends rest)
    (fit : fits (signed sign n) = true) :
    readDecimal sign s = some (.integer (signed sign n), rest) := by
  obtain ⟨digits, read, rfl⟩ := readWhole_eq whole ends
  rw [readDecimal, read]
  simp only [bind, Option.bind, readFraction_end ends, readExponent_end ends, and_self, if_true]
  exact if_pos fit

theorem readBased_eq {base : Nat} (grouped : Grouped (isDigitOf base) s digits rest)
    (ends : Ends rest) (fit : fits (Text.digitsValue base digits) = true) :
    readBased base s = some (.integer (Text.digitsValue base digits), rest) := by
  have read := readDigits_eq rfl grouped fun c u same => ends.not_isDigitOf base same
  change (readDigits (isDigitOf base) s).bind _ = _
  rw [read]
  exact if_pos fit

theorem fits_toInt (n : Int64) : fits n.toInt = true := by
  simp only [fits, Bool.and_eq_true, decide_eq_true_eq]
  exact ⟨n.minValue_le_toInt, n.toInt_le⟩

theorem Whole.head {n : Nat} (whole : Whole s n rest) : ∃ d t, s = d :: t ∧ d.isDigit = true := by
  rcases whole with ⟨rfl, -⟩ | ⟨digits, grouped, -, -⟩
  · exact ⟨_, _, rfl, rfl⟩
  · exact grouped.head

/-- Without a mark of another base a number is decimal. -/
theorem readNumber_unmarked {sign : Option Bool} (split : splitSign s = (sign, t))
    (unmarked : ∀ c u, s = '0' :: c :: u → c ∉ ['x', 'o', 'b'])
    (first : ∃ d u, t = d :: u ∧ d.isDigit = true) : readNumber s = readDecimal sign t := by
  obtain ⟨d, u, rfl, digit⟩ := first
  rw [readNumber.eq_def]
  split
  · next more => exact absurd (by simp) (unmarked 'x' more rfl)
  · next more => exact absurd (by simp) (unmarked 'o' more rfl)
  · next more => exact absurd (by simp) (unmarked 'b' more rfl)
  · rw [split]
    dsimp only
    split
    · next same => cases same; cases digit
    · next same => cases same; cases digit
    · rfl

theorem readNumber_eq {n : Int} (integer : Integer s n rest) (ends : Ends rest)
    (fit : fits n = true) : readNumber s = some (.integer n, rest) := by
  cases integer with
  | unsigned whole =>
    obtain ⟨d, t, rfl, digit⟩ := whole.head
    have split : splitSign (d :: t) = (none, d :: t) := by
      rw [splitSign]
      · rintro u same
        cases same
        cases digit
      · rintro u same
        cases same
        cases digit
    have unmarked : ∀ c u, d :: t = '0' :: c :: u → c ∉ ['x', 'o', 'b'] := by
      rintro c u same
      cases same
      rcases whole with ⟨same, -⟩ | ⟨digits, -, noZero, -⟩
      · cases same
        exact ends.not_mem rfl (by decide)
      · exact absurd rfl noZero
    rw [readNumber_unmarked split unmarked ⟨d, t, rfl, digit⟩]
    exact readDecimal_eq whole ends fit
  | @plus s _ _ whole =>
    have split : splitSign ('+' :: s) = (some false, s) := rfl
    rw [readNumber_unmarked split (by simp) whole.head]
    exact readDecimal_eq whole ends fit
  | @minus s _ _ whole =>
    have split : splitSign ('-' :: s) = (some true, s) := rfl
    rw [readNumber_unmarked split (by simp) whole.head]
    exact readDecimal_eq whole ends fit
  | based known grouped =>
    simp only [List.mem_cons, Prod.mk.injEq, List.not_mem_nil, or_false] at known
    rcases known with ⟨rfl, rfl⟩ | ⟨rfl, rfl⟩ | ⟨rfl, rfl⟩
    · exact readBased_eq grouped ends fit
    · exact readBased_eq grouped ends fit
    · exact readBased_eq grouped ends fit

theorem Integer.head {n : Int} (integer : Integer s n rest) :
    ∃ c t, s = c :: t ∧ (c = '+' ∨ c = '-' ∨ c.isDigit = true) := by
  cases integer with
  | unsigned whole =>
    obtain ⟨d, t, rfl, digit⟩ := whole.head
    exact ⟨d, t, rfl, Or.inr (Or.inr digit)⟩
  | plus => exact ⟨_, _, rfl, Or.inl rfl⟩
  | minus => exact ⟨_, _, rfl, Or.inr (Or.inl rfl)⟩
  | based => exact ⟨_, _, rfl, Or.inr (Or.inr rfl)⟩

theorem Whole.length_lt {n : Nat} (whole : Whole s n rest) : rest.length < s.length := by
  rcases whole with ⟨rfl, -⟩ | ⟨digits, grouped, -, -⟩
  · exact Nat.lt_succ_self _
  · exact grouped.length_lt

theorem Integer.length_lt {n : Int} (integer : Integer s n rest) : rest.length < s.length := by
  cases integer with
  | unsigned whole => exact whole.length_lt
  | plus whole => exact Nat.lt_succ_of_lt whole.length_lt
  | minus whole => exact Nat.lt_succ_of_lt whole.length_lt
  | based _ grouped => exact Nat.lt_succ_of_lt (Nat.lt_succ_of_lt grouped.length_lt)

end Integers

end MetricCatalog.Toml
