import Mathlib.Data.List.Forall2
import MetricCatalog.Proofs.Toml.Number
import MetricCatalog.Toml.Value

/-!
# Keys and values are read as the grammar says

From names to keys, from keys and values to assignments, and from assignments to tables between
braces: each reader gives back what the text stands for. The places that a reader notes beside it
are left open.
-/

namespace MetricCatalog.Toml

open Text

variable {s t rest : List Char} {c : Char}

section Keys

/-- A name stands at the front, after blanks. -/
def OpensWithName (s : List Char) : Prop :=
  ∃ c t, skipBlanks whitespace s = c :: t ∧ (isBare c = true ∨ c = '"')

theorem isBare_iff : isBare c = true ↔ c.isAlphanum ∨ c = '_' ∨ c = '-' := by
  simp [isBare, or_assoc]

theorem StringText.skip {value : String} (text : StringText s value rest) :
    ∃ t, skipBlanks whitespace s = '"' :: t ∧ Spells t value.toList rest := by
  obtain ⟨t, blanks, spells⟩ := text
  exact ⟨t, blanks.skip_cons rfl, spells⟩

theorem not_blank_of_isBare (bare : isBare c = true) : whitespace.contains c = false := by
  refine eq_false_of_ne_true fun blank => ?_
  have known : c ∈ [' ', '\t'] := List.contains_iff_mem.mp blank
  simp only [List.mem_cons, List.not_mem_nil, or_false] at known
  rcases known with rfl | rfl <;> cases bare

theorem NameText.opens {name : String} (text : NameText s name rest) : OpensWithName s := by
  cases text with
  | @bare name _ blanks some all =>
    obtain ⟨c, more, rfl⟩ := List.exists_cons_of_ne_nil some
    have bare := isBare_iff.mpr (all c List.mem_cons_self)
    exact ⟨c, _, blanks.skip_cons (not_blank_of_isBare bare), Or.inl bare⟩
  | quoted text =>
    obtain ⟨t, found, -⟩ := text.skip
    exact ⟨_, t, found, Or.inr rfl⟩

theorem NameText.length_lt {name : String} (text : NameText s name rest) :
    rest.length < s.length := by
  cases text with
  | bare blanks some =>
    have shorter := blanks.length_le
    have positive := List.length_pos_iff.mpr some
    rw [List.length_append] at shorter
    omega
  | quoted text => exact text.length_lt

/-- What may follow a name. -/
theorem not_isBare_of_blanks {mark : Char} (blanks : Blanks rest (mark :: t))
    (known : mark ∈ ['.', '=', ']']) : ∀ c u, rest = c :: u → isBare c = false := by
  intro c u same
  obtain ⟨d, v, rfl, here⟩ := blanks.head
  cases same
  simp only [List.mem_cons, List.not_mem_nil, or_false] at known here
  rcases here with rfl | rfl | rfl
  · rcases known with rfl | rfl | rfl <;> rfl
  · rfl
  · rfl

theorem readKey_bare (bare : isBare c = true) :
    readKey (c :: t) =
      some (⟨String.ofList ((c :: t).takeWhile isBare),
        .between (c :: t) ((c :: t).dropWhile isBare)⟩, (c :: t).dropWhile isBare) := by
  rw [readKey]
  · exact if_neg (by simp [bare])
  · rintro u same
    cases same
    cases bare
  · rintro u same
    cases same
    cases bare

theorem readKey_eq {name : String} (text : NameText s name rest)
    (stops : ∀ c u, rest = c :: u → isBare c = false) :
    ∃ key, readKey (skipBlanks whitespace s) = some (key, rest) ∧ key.name = name := by
  cases text with
  | @bare name _ blanks some all =>
    obtain ⟨c, more, rfl⟩ := List.exists_cons_of_ne_nil some
    have all : ∀ d ∈ c :: more, isBare d = true := fun d here => isBare_iff.mpr (all d here)
    have bare := all c List.mem_cons_self
    have taken : (c :: more ++ rest).takeWhile isBare = c :: more := by
      rw [List.takeWhile_append_of_pos all]
      cases rest with
      | nil => simp
      | cons d u => rw [List.takeWhile_cons_of_neg (by simp [stops d u rfl]), List.append_nil]
    have dropped : (c :: more ++ rest).dropWhile isBare = rest := by
      rw [List.dropWhile_append_of_pos all]
      cases rest with
      | nil => rfl
      | cons d u => exact List.dropWhile_cons_of_neg (by simp [stops d u rfl])
    have read := @readKey_bare (more ++ rest) c bare
    rw [← List.cons_append, taken, dropped] at read
    rw [blanks.skip_cons (not_blank_of_isBare bare)]
    exact ⟨_, read, rfl⟩
  | quoted text =>
    obtain ⟨t, found, spells⟩ := text.skip
    refine ⟨⟨name, .between ('"' :: t) rest⟩, ?_, rfl⟩
    rw [found, readKey, readBasic_eq spells]
    simp

theorem KeyText.opens {names : List String} (text : KeyText s names rest) : OpensWithName s := by
  cases text with
  | last text => exact text.opens
  | dotted text => exact text.opens

theorem KeyText.length_lt {names : List String} (text : KeyText s names rest) :
    rest.length < s.length := by
  induction text with
  | last text => exact text.length_lt
  | dotted text point _ ih => exact Nat.lt_trans ih (Nat.lt_trans point.length_lt text.length_lt)

theorem HeaderText.length_lt {names : List String} (text : HeaderText s names rest) :
    rest.length < s.length := by
  obtain ⟨t, u, bracket, key, close⟩ := text
  exact Nat.lt_trans close.length_lt (Nat.lt_trans key.length_lt bracket.length_lt)

/-- The names of a key, the last one included. -/
def keyNames (path : List Key) (key : Key) : List String :=
  path.map Key.name ++ [key.name]

theorem readPath_eq {names : List String} {n : Nat} (text : KeyText s names t)
    (few : names.length ≤ n) (blanks : Blanks t (c :: rest)) (known : c ∈ ['=', ']']) :
    ∃ path key, readPath n s = some (path, key, c :: rest) ∧ keyNames path key = names := by
  have token : skipBlanks whitespace t = c :: rest := by
    apply blanks.skip_cons
    simp only [List.mem_cons, List.not_mem_nil, or_false] at known
    rcases known with rfl | rfl <;> rfl
  induction text generalizing n with
  | last text =>
    obtain ⟨more, rfl⟩ := Nat.exists_eq_succ_of_ne_zero (Nat.ne_of_gt few)
    obtain ⟨key, read, rfl⟩ :=
      readKey_eq text (not_isBare_of_blanks blanks (List.mem_cons_of_mem _ known))
    refine ⟨[], key, ?_, rfl⟩
    rw [readPath, read]
    simp only [bind, Option.bind, token]
    split
    · next same =>
      cases same
      simp at known
    · rfl
  | dotted text point _ ih =>
    rw [List.length_cons] at few
    obtain ⟨more, rfl⟩ := Nat.exists_eq_succ_of_ne_zero (Nat.ne_of_gt (Nat.zero_lt_of_lt few))
    obtain ⟨key, read, rfl⟩ := readKey_eq text (not_isBare_of_blanks point (by simp))
    obtain ⟨path, last, others, rfl⟩ := ih (Nat.le_of_succ_le_succ few) blanks token
    refine ⟨key :: path, last, ?_, rfl⟩
    rw [readPath, read]
    simp only [bind, Option.bind, point.skip_cons rfl, others]
    rfl

end Keys

section Assignments

variable {α : Type} {read : Reader Item} {value : List Char → α → List Char → Prop}
  {means : Item → α → Prop}

/-- The reader gives back what the text of a value means, wherever the value may end. -/
structure Reads (read : Reader Item) (value : List Char → α → List Char → Prop)
    (means : Item → α → Prop) : Prop where
  of_text : ∀ {s a rest}, value s a rest → Ends rest →
    ∃ item, read (skipBlanks whitespace s) = some (item, rest) ∧ means item a

/-- The part described takes up some of the text. -/
structure Shortens (part : List Char → α → List Char → Prop) : Prop where
  length_lt : ∀ {s a rest}, part s a rest → rest.length < s.length

/-- The part described begins with a name, too. -/
structure Keyed (part : List Char → α → List Char → Prop) : Prop extends Shortens part where
  opens : ∀ {s a rest}, part s a rest → OpensWithName s

/-- An assignment under a key with these names, of an item that means this value. -/
def Assignment.Gives (a : Assignment) (names : List String) (means : Item → Prop) : Prop :=
  keyNames a.path a.key = names ∧ means a.item

theorem readAssignment_eq (reads : Reads read value means) {names : List String} {a : α}
    (text : AssignmentText value s names a rest) (few : names.length ≤ depthLimit)
    (ends : Ends rest) :
    ∃ assignment, readAssignment read s = some (assignment, rest) ∧
      assignment.Gives names fun item => means item a := by
  obtain ⟨t, u, key, sign, text⟩ := text
  obtain ⟨path, last, readKey, names⟩ := readPath_eq key few sign (by simp)
  obtain ⟨item, readItem, means⟩ := reads.of_text text ends
  refine ⟨⟨path, last, item, .between (skipBlanks whitespace u) rest⟩, ?_, names, means⟩
  rw [readAssignment, readKey]
  simp only [bind, Option.bind, takeChar, if_true, readItem]
  rfl

theorem readAssignment_skipBlanks (read : Reader Item) (s : List Char) :
    readAssignment read (skipBlanks whitespace s) = readAssignment read s := by
  have path : readPath depthLimit (skipBlanks whitespace s) = readPath depthLimit s := by
    rw [depthLimit, readPath, skipBlanks_skipBlanks, readPath]
  rw [readAssignment, path, readAssignment]

theorem AssignmentText.opens {names : List String} {a : α}
    (text : AssignmentText value s names a rest) : OpensWithName s := by
  obtain ⟨t, u, key, -, -⟩ := text
  exact key.opens

theorem AssignmentText.length_lt (shortens : Shortens value) {names : List String} {a : α}
    (text : AssignmentText value s names a rest) : rest.length < s.length := by
  obtain ⟨t, u, key, sign, text⟩ := text
  exact Nat.lt_trans (shortens.length_lt text) (Nat.lt_trans sign.length_lt key.length_lt)

end Assignments

section Scalars

def Scalar.item : Scalar → Item
  | .boolean value => .boolean value
  | .integer value => .integer value.toInt
  | .string value => .string value

/-- The tests that come before numbers fail on the beginning of an integer. -/
theorem readScalar_of_number (first : c = '+' ∨ c = '-' ∨ c.isDigit = true)
    (moment : readMoment (c :: t) = none) {n : Int}
    (number : readNumber (c :: t) = some (.integer n, rest)) :
    readScalar (c :: t) = some (.integer n, rest) := by
  have other {d : Char} (mark : d ∈ ['t', 'f', '"', '\'']) : c ≠ d := by
    rintro rfl
    simp only [List.mem_cons, List.not_mem_nil, or_false] at mark
    rcases mark with rfl | rfl | rfl | rfl <;> simp at first
  rw [readScalar.eq_def]
  split
  · next same => exact absurd (List.cons.inj same).1 (other (by simp))
  · next same => exact absurd (List.cons.inj same).1 (other (by simp))
  · next same => exact absurd (List.cons.inj same).1 (other (by simp))
  · next same => exact absurd (List.cons.inj same).1 (other (by simp))
  · rw [moment, number]
    rfl

theorem readScalar_eq {a : Scalar} (text : ScalarText s a rest) (ends : Ends rest) :
    ∃ c t, skipBlanks whitespace s = c :: t ∧ c ∉ ['[', '{'] ∧
      readScalar (c :: t) = some (a.item, rest) := by
  cases text with
  | yes blanks => exact ⟨_, _, blanks.skip_cons rfl, by decide, rfl⟩
  | no blanks => exact ⟨_, _, blanks.skip_cons rfl, by decide, rfl⟩
  | integer blanks integer =>
    obtain ⟨c, t, rfl, first⟩ := integer.head
    have token : whitespace.contains c = false ∧ c ∉ ['[', '{'] := by
      rcases first with rfl | rfl | digit
      · decide
      · decide
      · exact ⟨not_blank_of_isBare (isBare_iff.mpr (Or.inl (by simp [Char.isAlphanum, digit]))),
          fun bracket => by
            simp only [List.mem_cons, List.not_mem_nil, or_false] at bracket
            rcases bracket with rfl | rfl <;> cases digit⟩
    refine ⟨c, t, blanks.skip_cons token.1, token.2, ?_⟩
    exact readScalar_of_number first (readMoment_eq_none (integer.not_clocked ends))
      (readNumber_eq integer ends (fits_toInt _))
  | string text =>
    obtain ⟨t, found, spells⟩ := text.skip
    refine ⟨_, t, found, by decide, ?_⟩
    rw [readScalar, readText_eq spells ends]
    simp [Scalar.item]

theorem readValue_scalar (depth : Nat) (other : c ∉ ['[', '{']) :
    readValue depth (c :: t) = readScalar (c :: t) := by
  cases depth with
  | zero => rfl
  | succ depth =>
    simp only [List.mem_cons, List.not_mem_nil, or_false, not_or] at other
    rw [readValue]
    · rintro u same
      exact other.1 (List.cons.inj same).1
    · rintro u same
      exact other.2 (List.cons.inj same).1

theorem reads_scalar (depth : Nat) :
    Reads (readValue depth) ScalarText fun item a => item = a.item where
  of_text {s a rest} text ends := by
    obtain ⟨c, t, found, other, read⟩ := readScalar_eq text ends
    exact ⟨a.item, by rw [found, readValue_scalar depth other, read], rfl⟩

theorem reads_string (depth : Nat) :
    Reads (readValue depth) StringText fun item value => item = .string value where
  of_text text ends := (reads_scalar depth).of_text (.string text) ends

theorem shortens_string : Shortens StringText := ⟨StringText.length_lt⟩

theorem shortens_scalar : Shortens ScalarText where
  length_lt {s a rest} text := by
    cases text with
    | yes blanks =>
      have := blanks.length_le
      simp only [List.length_cons] at this
      omega
    | no blanks =>
      have := blanks.length_le
      simp only [List.length_cons] at this
      omega
    | integer blanks integer => exact Nat.lt_of_lt_of_le integer.length_lt blanks.length_le
    | string text => exact text.length_lt

end Scalars

section Tables

variable {α : Type} {read : Reader Item} {assignment : List Char → α → List Char → Prop}
  {gives : Assignment → α → Prop}

/-- The reader of assignments gives back what the text of this one means. -/
def Readable (read : Reader Item) (assignment : List Char → α → List Char → Prop)
    (gives : Assignment → α → Prop) (a : α) : Prop :=
  ∀ s rest, assignment s a rest → Ends rest →
    ∃ made, readAssignment read s = some (made, rest) ∧ gives made a

/-- The assignments between braces are read in order; the length of their text is a sufficient
number of them. -/
theorem readAssignments_eq (reads : ∀ a, Readable read assignment gives a)
    (keyed : Keyed assignment) {values : List α}
    (text : Enclosed assignment s values rest) {n : Nat} (enough : s.length ≤ n) :
    ∃ made, readAssignments read n s = some (made, rest) ∧ List.Forall₂ gives made values := by
  induction text generalizing n with
  | last first close =>
    have shorter := keyed.length_lt first
    obtain ⟨more, rfl⟩ := Nat.exists_eq_succ_of_ne_zero (show n ≠ 0 by omega)
    obtain ⟨made, readFirst, given⟩ := reads _ _ _ first (.of_blanks close (by simp))
    refine ⟨[made], ?_, .cons given .nil⟩
    rw [readAssignments, readFirst]
    simp only [bind, Option.bind, close.skip_cons rfl]
    rfl
  | next first comma _ ih =>
    have shorter := keyed.length_lt first
    have further := comma.length_lt
    obtain ⟨more, rfl⟩ := Nat.exists_eq_succ_of_ne_zero (show n ≠ 0 by omega)
    obtain ⟨made, readFirst, given⟩ := reads _ _ _ first (.of_blanks comma (by simp))
    obtain ⟨others, readOthers, givenOthers⟩ := @ih more (by omega)
    refine ⟨made :: others, ?_, .cons given givenOthers⟩
    rw [readAssignments, readFirst]
    simp only [bind, Option.bind, comma.skip_cons rfl, readOthers]
    rfl

theorem Enclosed.opens (keyed : Keyed assignment) {values : List α}
    (inside : Enclosed assignment s values rest) : OpensWithName s := by
  cases inside with
  | last first => exact keyed.opens first
  | next first => exact keyed.opens first

theorem Enclosed.length_lt (keyed : Keyed assignment) {values : List α}
    (inside : Enclosed assignment s values rest) : rest.length < s.length := by
  induction inside with
  | last first close => exact Nat.lt_trans close.length_lt (keyed.length_lt first)
  | next first comma _ ih =>
    exact Nat.lt_trans ih (Nat.lt_trans comma.length_lt (keyed.length_lt first))

theorem shortens_table (keyed : Keyed assignment) : Shortens (TableText assignment) where
  length_lt {s values rest} text := by
    obtain ⟨t, brace, ⟨-, close⟩ | inside⟩ := text
    · exact Nat.lt_trans close.length_lt brace.length_lt
    · exact Nat.lt_trans (inside.length_lt keyed) brace.length_lt

/-- A table between braces holds what its assignments make, if they fit together. -/
theorem readTable_eq {depth : Nat} (reads : ∀ a, Readable (readValue depth) assignment gives a)
    (keyed : Keyed assignment) {values : List α} (text : TableText assignment s values rest) :
    ∃ made, List.Forall₂ gives made values ∧ ∀ entries, applyAll made [] = some entries →
      readValue (depth + 1) (skipBlanks whitespace s) = some (.table .closed entries, rest) := by
  obtain ⟨t, brace, ⟨rfl, close⟩ | inside⟩ := text
  · refine ⟨[], .nil, fun entries applied => ?_⟩
    cases applied
    rw [brace.skip_cons rfl, readValue, readClosedTable, close.skip_cons rfl]
    rfl
  · obtain ⟨made, readAll, given⟩ := readAssignments_eq reads keyed inside (Nat.le_refl _)
    refine ⟨made, given, fun entries applied => ?_⟩
    obtain ⟨c, u, found, first⟩ := inside.opens keyed
    rw [brace.skip_cons rfl, readValue, readClosedTable.eq_def]
    split
    · next close =>
      rw [close] at found
      cases found
      simp [isBare] at first
    · simp only [readAll, bind, Option.bind, applied]
      rfl

end Tables

end MetricCatalog.Toml
