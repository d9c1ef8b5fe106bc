import MetricCatalog.Text.Lexeme

/-!
# Blanks before a token, and the digits of a number

`Blanks` says what is passed over at the front of a text, whichever characters a format takes for
blank. For numbers: what digits they are written with, and that they have it as their value, in
decimal and in four hexadecimal digits where two would do.
-/

namespace MetricCatalog.Text

section Blanks

variable {blank s t u rest : List Char} {c : Char}

/-- Nothing but blanks stands before the rest. -/
def Blanks (blank s rest : List Char) : Prop :=
  ∃ blanks : List Char, (∀ c ∈ blanks, c ∈ blank) ∧ s = blanks ++ rest

namespace Blanks

theorem refl (s : List Char) : Blanks blank s s :=
  ⟨[], List.forall_mem_nil _, rfl⟩

theorem cons (known : c ∈ blank) (blanks : Blanks blank s t) : Blanks blank (c :: s) t := by
  obtain ⟨front, all, rfl⟩ := blanks
  exact ⟨c :: front, List.forall_mem_cons.mpr ⟨known, all⟩, rfl⟩

theorem trans (first : Blanks blank s t) (second : Blanks blank t u) : Blanks blank s u := by
  obtain ⟨before, allBefore, rfl⟩ := first
  obtain ⟨after, allAfter, rfl⟩ := second
  refine ⟨before ++ after, fun c here => ?_, (List.append_assoc ..).symm⟩
  rcases List.mem_append.mp here with left | right
  · exact allBefore c left
  · exact allAfter c right

theorem append (blanks : Blanks blank s rest) (more : List Char) :
    Blanks blank (s ++ more) (rest ++ more) := by
  obtain ⟨front, all, rfl⟩ := blanks
  exact ⟨front, all, List.append_assoc ..⟩

theorem length_le (blanks : Blanks blank s t) : t.length ≤ s.length := by
  obtain ⟨front, -, rfl⟩ := blanks
  simp

theorem length_lt (blanks : Blanks blank s (c :: rest)) : rest.length < s.length :=
  blanks.length_le

/-- Before a token there is a blank or the token itself. -/
theorem head (blanks : Blanks blank s (c :: rest)) : ∃ d t, s = d :: t ∧ d ∈ c :: blank := by
  obtain ⟨front, all, rfl⟩ := blanks
  cases front with
  | nil => exact ⟨c, rest, rfl, List.mem_cons_self⟩
  | cons d more => exact ⟨d, _, rfl, List.mem_cons_of_mem c (all d List.mem_cons_self)⟩

theorem skip (blanks : Blanks blank s t) : skipBlanks blank s = skipBlanks blank t := by
  obtain ⟨front, all, rfl⟩ := blanks
  exact List.dropWhile_append_of_pos fun c here => List.contains_iff_mem.mpr (all c here)

end Blanks

theorem blanks_skipBlanks (s : List Char) : Blanks blank s (skipBlanks blank s) := by
  refine ⟨s.takeWhile blank.contains, fun c here => List.contains_iff_mem.mp ?_, ?_⟩
  · exact List.all_eq_true.mp List.all_takeWhile c here
  · exact List.takeWhile_append_dropWhile.symm

theorem skipBlanks_skipBlanks (s : List Char) :
    skipBlanks blank (skipBlanks blank s) = skipBlanks blank s :=
  (blanks_skipBlanks s).skip.symm

theorem skipBlanks_cons (token : blank.contains c = false) :
    skipBlanks blank (c :: rest) = c :: rest :=
  List.dropWhile_cons_of_neg (ne_true_of_eq_false token)

theorem contains_eq_false_of_skipBlanks (found : skipBlanks blank s = c :: rest) :
    blank.contains c = false := by
  have first := List.head?_dropWhile_not blank.contains s
  rw [skipBlanks] at found
  rw [found] at first
  simpa using first

theorem Blanks.skip_cons (blanks : Blanks blank s (c :: rest)) (token : blank.contains c = false) :
    skipBlanks blank s = c :: rest := by
  rw [blanks.skip, skipBlanks_cons token]

theorem skipBlanks_eq_cons_iff (token : blank.contains c = false) :
    skipBlanks blank s = c :: rest ↔ Blanks blank s (c :: rest) := by
  constructor
  · intro found
    rw [← found]
    exact blanks_skipBlanks s
  · exact fun blanks => blanks.skip_cons token

theorem skipBlanks_eq_nil_iff : skipBlanks blank s = [] ↔ Blanks blank s [] := by
  constructor
  · intro found
    rw [← found]
    exact blanks_skipBlanks s
  · exact fun blanks => blanks.skip

end Blanks

theorem hexValue_lt {d : Char} {v : Nat} (value : hexValue? d = some v) : v < 16 := by
  have scale {a b : Char} {k : Nat} (range : a ≤ d ∧ d ≤ b) (short : b.toNat - a.toNat + k < 16) :
      d.toNat - a.toNat + k < 16 := by
    have low : a.toNat ≤ d.toNat := range.1
    have high : d.toNat ≤ b.toNat := range.2
    omega
  rw [hexValue?] at value
  split at value
  · next range =>
    cases value
    exact @scale '0' '9' 0 range (by decide)
  · split at value
    · next range =>
      cases value
      exact scale range (by decide)
    · split at value
      · next range =>
        cases value
        exact scale range (by decide)
      · cases value

theorem digitValue_lt (d : Char) : digitValue d < 16 := by
  rw [digitValue]
  cases value : hexValue? d with
  | none => decide
  | some v => exact hexValue_lt value

theorem hexValue_of_isDigit {d : Char} (digit : d.isDigit = true) :
    (hexValue? d).isSome = true := by
  simp only [Char.isDigit, Bool.and_eq_true, decide_eq_true_eq] at digit
  rw [hexValue?, if_pos ⟨digit.1, digit.2⟩]
  rfl

theorem hexValue_digitChar : ∀ k < 16, hexValue? (Nat.digitChar k) = some k := by
  decide

theorem digitValue_digitChar {k : Nat} (small : k < 16) : digitValue (Nat.digitChar k) = k := by
  rw [digitValue, hexValue_digitChar k small]
  rfl

/-- Four digits are more than enough for a small number: the upper two are zeros. -/
theorem digitsValue_padded {n : Nat} (small : n < 0x100) :
    (∀ d ∈ ['0', '0', Nat.digitChar (n / 16), Nat.digitChar (n % 16)], (hexValue? d).isSome) ∧
      n = digitsValue 16 ['0', '0', Nat.digitChar (n / 16), Nat.digitChar (n % 16)] := by
  have high : n / 16 < 16 := by omega
  have low : n % 16 < 16 := Nat.mod_lt n (by decide)
  refine ⟨fun d here => ?_, ?_⟩
  · simp only [List.mem_cons, List.not_mem_nil, or_false] at here
    rcases here with rfl | rfl | rfl | rfl
    · rfl
    · rfl
    · rw [hexValue_digitChar _ high]
      rfl
    · rw [hexValue_digitChar _ low]
      rfl
  · have zero : digitValue '0' = 0 := rfl
    simp only [digitsValue, List.foldl_cons, List.foldl_nil, zero, digitValue_digitChar high,
      digitValue_digitChar low]
    omega

/-- One more digit: the number so far is shifted and the digit added. -/
theorem digitsValue_concat (digits : List Char) (d : Char) :
    digitsValue 10 (digits ++ [d]) = digitsValue 10 digits * 10 + digitValue d := by
  rw [digitsValue, List.foldl_append]
  rfl

theorem digitsValue_toDigits (n : Nat) : digitsValue 10 (Nat.toDigits 10 n) = n := by
  induction n using Nat.strongRecOn with
  | ind n ih =>
    by_cases small : n < 10
    · rw [Nat.toDigits_of_lt_base small]
      have value := digitValue_digitChar (show n < 16 by omega)
      simp [digitsValue, value]
    · rw [Nat.toDigits_of_base_le (by decide) (by omega), digitsValue_concat,
        ih (n / 10) (by omega), digitValue_digitChar (by omega)]
      omega

theorem head_toDigits {n : Nat} (positive : 0 < n) : (Nat.toDigits 10 n).head? ≠ some '0' := by
  induction n using Nat.strongRecOn with
  | ind n ih =>
    by_cases small : n < 10
    · rw [Nat.toDigits_of_lt_base small]
      intro zero
      have value := digitValue_digitChar (show n < 16 by omega)
      rw [Option.some.inj zero] at value
      have none : digitValue '0' = 0 := rfl
      omega
    · -- The first digit is that of the number without its last digit.
      have first := ih (n / 10) (by omega) (by omega)
      obtain ⟨d, digits, split⟩ :=
        List.exists_cons_of_ne_nil (Nat.toDigits_ne_nil : Nat.toDigits 10 (n / 10) ≠ [])
      rw [split] at first
      rw [Nat.toDigits_of_base_le (by decide) (by omega), split]
      exact first

theorem toList_toString_of_neg {n : Int} (negative : n < 0) :
    (toString n).toList = '-' :: Nat.toDigits 10 (-n).toNat := by
  change n.repr.toList = _
  rw [Int.repr_eq_if, if_neg (Int.not_le.mpr negative), Nat.repr_eq_ofList_toDigits]
  simp

theorem toList_toString_of_nonneg {n : Int} (positive : 0 ≤ n) :
    (toString n).toList = Nat.toDigits 10 n.toNat := by
  change n.repr.toList = _
  rw [Int.repr_eq_if, if_pos positive, Nat.repr_eq_ofList_toDigits, String.toList_ofList]

end MetricCatalog.Text
