import MetricCatalog.Proofs.Text.Lexeme
import MetricCatalog.Proofs.Toml.Grammar

/-!
# Written TOML

Values without parts, names and assignments as they are commonly written, and that the grammar has
them for what they were written for. In a string the quote, the backslash and the control
characters are escaped; all other characters stand as they are.
-/

namespace MetricCatalog.Toml

open Text

section Writer

def writeChar (c : Char) : List Char :=
  if c = '"' ∨ c = '\\' then ['\\', c]
  else if c.toNat < 0x20 ∨ c.toNat = 0x7F then
    ['\\', 'u', '0', '0', Nat.digitChar (c.toNat / 16), Nat.digitChar (c.toNat % 16)]
  else [c]

def writeText (text : String) : List Char :=
  '"' :: text.toList.flatMap writeChar ++ ['"']

def Scalar.write : Scalar → List Char
  | boolean value => (toString value).toList
  | integer value => (toString value.toInt).toList
  | string value => writeText value

/-- A key of two names. -/
def writeDotted (first last : List Char) : List Char :=
  first ++ '.' :: last

def writeAssignment (key value : List Char) : List Char :=
  key ++ " = ".toList ++ value

/-- Each on a line of its own. -/
def writeLines {α : Type} (write : α → List Char) (values : List α) : List Char :=
  values.flatMap fun a => write a ++ ['\n']

end Writer

variable {s t rest : List Char}

section Strings

theorem blanks_space (s : List Char) : Blanks (' ' :: s) s :=
  (Blanks.refl s).cons List.mem_cons_self

theorem spells_writeChar (c : Char) {text : List Char} (more : Spells s text rest) :
    Spells (writeChar c ++ s) (c :: text) rest := by
  rw [writeChar]
  split
  · next escaped => exact .short (by rcases escaped with rfl | rfl <;> decide) more
  · next noEscape =>
    obtain ⟨noQuote, noBackslash⟩ := not_or.mp noEscape
    split
    · next control =>
      obtain ⟨digits, value⟩ := Text.digitsValue_padded (show c.toNat < 0x100 by omega)
      exact .code (List.mem_cons_self : ('u', 4) ∈ _) ⟨_, rfl, digits, value, rfl⟩ more
    · next printed =>
      obtain ⟨low, delete⟩ := not_or.mp printed
      exact .plain (.inr ⟨Nat.not_lt.mp low, delete⟩) noQuote noBackslash more

theorem spells_write (text rest : List Char) :
    Spells (text.flatMap writeChar ++ '"' :: rest) text rest := by
  induction text with
  | nil => exact .close
  | cons c text ih =>
    rw [List.flatMap_cons, List.append_assoc]
    exact spells_writeChar c ih

theorem stringText_write {value : String} (blanks : Blanks s (writeText value ++ rest)) :
    StringText s value rest := by
  refine ⟨value.toList.flatMap writeChar ++ '"' :: rest, ?_, spells_write value.toList rest⟩
  rwa [writeText, List.append_assoc] at blanks

end Strings

section Integers

theorem grouped_of_all {isDigit : Char → Bool} {digits : List Char} (some : digits ≠ [])
    (all : ∀ d ∈ digits, isDigit d) : Grouped isDigit (digits ++ rest) digits rest := by
  induction digits with
  | nil => exact absurd rfl some
  | cons d digits ih =>
    obtain ⟨first, others⟩ := List.forall_mem_cons.mp all
    cases digits with
    | nil => exact .last first
    | cons d digits => exact .next first (ih (List.cons_ne_nil d digits) others)

theorem whole_toDigits (n : Nat) : Whole (Nat.toDigits 10 n ++ rest) n rest := by
  by_cases positive : 0 < n
  · refine .inr ⟨Nat.toDigits 10 n, grouped_of_all Nat.toDigits_ne_nil fun d => ?_, ?_,
      (Text.digitsValue_toDigits n).symm⟩
    · exact Nat.isDigit_of_mem_toDigits (by decide) (by decide)
    · rw [List.head?_append, List.head?_eq_some_head Nat.toDigits_ne_nil, Option.some_or,
        ← List.head?_eq_some_head]
      exact Text.head_toDigits positive
  · rw [Nat.eq_zero_of_not_pos positive]
    exact .inl ⟨rfl, rfl⟩

theorem integer_toString (n : Int) : Integer ((toString n).toList ++ rest) n rest := by
  by_cases negative : n < 0
  · have integer := Integer.minus (@whole_toDigits rest (-n).toNat)
    rw [Text.toList_toString_of_neg negative]
    rwa [Int.toNat_of_nonneg (by omega), Int.neg_neg] at integer
  · have positive := Int.not_lt.mp negative
    have integer := Integer.unsigned (@whole_toDigits rest n.toNat)
    rw [Text.toList_toString_of_nonneg positive]
    rwa [Int.toNat_of_nonneg positive] at integer

end Integers

theorem scalarText_write {value : Scalar} (blanks : Blanks s (value.write ++ rest)) :
    ScalarText s value rest := by
  cases value with
  | boolean value =>
    cases value with
    | true => exact .yes blanks
    | false => exact .no blanks
  | integer n => exact .integer blanks (integer_toString n.toInt)
  | string value => exact .string (stringText_write blanks)

section Statements

theorem writeAssignment_append (key value rest : List Char) :
    writeAssignment key value ++ rest = key ++ (" = ".toList ++ (value ++ rest)) := by
  rw [writeAssignment, List.append_assoc, List.append_assoc]

theorem nameText_bare {name : String} (some : name.toList ≠ [])
    (all : ∀ c ∈ name.toList, c.isAlphanum ∨ c = '_' ∨ c = '-') (rest : List Char) :
    NameText (name.toList ++ rest) name rest := by
  have text := NameText.bare (Blanks.refl (name.toList ++ rest)) some all
  rwa [String.ofList_toList] at text

theorem keyText_quoted {name : String} (blanks : Blanks s (writeText name ++ rest)) :
    KeyText s [name] rest :=
  .last (.quoted (stringText_write blanks))

theorem keyText_dotted {first : String} {last : List Char} {names : List String}
    (text : ∀ rest, NameText (first.toList ++ rest) first rest)
    (others : KeyText (last ++ rest) names rest) :
    KeyText (writeDotted first.toList last ++ rest) (first :: names) rest := by
  rw [writeDotted, List.append_assoc]
  exact .dotted (text _) (Blanks.refl _) others

theorem assignmentText_write {α : Type} {value : List Char → α → List Char → Prop}
    {names : List String} {a : α} {written : List Char}
    (key : KeyText s names (" = ".toList ++ (written ++ rest)))
    (text : value (' ' :: (written ++ rest)) a rest) : AssignmentText value s names a rest :=
  ⟨_, _, key, (blanks_space _), text⟩

theorem lineEnd_newline (rest : List Char) : LineEnd ('\n' :: rest) rest :=
  ⟨_, _, Blanks.refl _, .inl rfl, .inl rfl⟩

theorem lines_write {α : Type} {statement : List Char → α → List Char → Prop}
    {write : α → List Char} {values : List α}
    (written : ∀ a ∈ values, ∀ rest, statement (write a ++ rest) a rest) :
    Lines statement (writeLines write values ++ rest) values rest := by
  induction values with
  | nil => exact .done
  | cons a values ih =>
    obtain ⟨first, others⟩ := List.forall_mem_cons.mp written
    rw [writeLines, List.flatMap_cons, List.append_assoc, List.append_assoc]
    exact .line (first _) (lineEnd_newline _) (ih others)

end Statements

end MetricCatalog.Toml
