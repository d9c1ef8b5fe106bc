import Mathlib.Data.List.Forall2
import MetricCatalog.Json.Writer
import MetricCatalog.Proofs.Json.Text
import MetricCatalog.Proofs.Text.Lexeme

/-!
# Written JSON is spelled by the grammar

What is written for a value is that value by the grammar wherever it stands: `Written` leaves open
what follows. Strings, whole numbers, lists and fields are settled each on its own, so that a
format is settled by putting its parts together. No reader takes part.
-/

namespace MetricCatalog.Json

open Text

variable {s t rest : List Char}

/-- The text is the item, whatever follows it. -/
def Written {α : Type} (item : List Char → α → List Char → Prop) (text : List Char) (a : α) :
    Prop :=
  ∀ rest, item (text ++ rest) a rest

theorem writeText_append (text : String) (rest : List Char) :
    writeText text ++ rest = '"' :: (text.toList.flatMap writeChar ++ '"' :: rest) := by
  simp [writeText]

theorem writeList_append (parts : List (List Char)) (rest : List Char) :
    writeList parts ++ rest = '[' :: (commaSeparated parts ++ ']' :: rest) := by
  simp [writeList]

theorem writeObject_append (fields : List (String × List Char)) (rest : List Char) :
    writeObject fields ++ rest =
      '{' :: (commaSeparated (fields.map fun (name, value) => writeText name ++ ':' :: value) ++
        '}' :: rest) := by
  simp [writeObject]

section Strings

theorem fourHex_control {n : Nat} (control : n < 0x20) :
    FourHex (['0', '0', Nat.digitChar (n / 16), Nat.digitChar (n % 16)] ++ rest) n rest := by
  obtain ⟨digits, value⟩ := Text.digitsValue_padded (Nat.lt_of_lt_of_le control (by decide))
  exact ⟨_, rfl, digits, value, rfl⟩

theorem spells_writeChar (c : Char) {text : List Char} (more : Spells s text rest) :
    Spells (writeChar c ++ s) (c :: text) rest := by
  rw [writeChar.eq_def]
  split
  case h_8 quote backslash _ _ _ _ _ =>
    split
    · next control => exact .code (fourHex_control control) more
    · next printed => exact .plain ⟨quote, backslash, Nat.not_lt.mp printed⟩ more
  all_goals exact .short (by decide) more

theorem spells_write (text rest : List Char) :
    Spells (text.flatMap writeChar ++ '"' :: rest) text rest := by
  induction text with
  | nil => exact .close
  | cons c text ih =>
    rw [List.flatMap_cons, List.append_assoc]
    exact spells_writeChar c ih

end Strings

section Integers

theorem whole_toDigits (n : Nat) : Whole (Nat.toDigits 10 n) := by
  refine ⟨⟨Nat.toDigits_ne_nil, fun d => Nat.isDigit_of_mem_toDigits (by decide) (by decide)⟩,
    fun zero => ?_⟩
  by_cases positive : 0 < n
  · exact absurd zero (Text.head_toDigits positive)
  · rw [Nat.eq_zero_of_not_pos positive]
    rfl

/-- Integers are written without a needless zero and with a sign only when negative. -/
theorem written_integer (n : Int64) : Written Integer (toString n.toInt).toList n := by
  intro rest
  by_cases negative : n.toInt < 0
  · have value := Text.digitsValue_toDigits (-n.toInt).toNat
    refine ⟨Nat.toDigits 10 (-n.toInt).toNat, whole_toDigits _, Or.inr ⟨?_, fun zero => ?_, ?_⟩⟩
    · rw [Text.toList_toString_of_neg negative]
    · exact Text.head_toDigits (show 0 < (-n.toInt).toNat by omega) (by rw [zero]; rfl)
    · omega
  · have value := Text.digitsValue_toDigits n.toInt.toNat
    refine ⟨Nat.toDigits 10 n.toInt.toNat, whole_toDigits _, Or.inl ⟨?_, ?_⟩⟩
    · rw [Text.toList_toString_of_nonneg (Int.not_lt.mp negative)]
    · omega

end Integers

section Items

variable {α : Type} {item : List Char → α → List Char → Prop} {close : Char}

/-- An item that stands first stands later too, after a comma. -/
theorem Items.after_comma {a : α} {others : List α}
    (items : Items close item true s (a :: others) rest) :
    Items close item false (',' :: s) (a :: others) rest := by
  obtain ⟨t, u, rfl, first, more⟩ := items
  exact ⟨s, u, Blanks.refl _, first, more⟩

theorem items_commaSeparated {parts : List (List Char)} {values : List α}
    (all : List.Forall₂ (Written item) parts values) (rest : List Char) :
    Items close item true (commaSeparated parts ++ close :: rest) values rest := by
  induction all with
  | nil => exact Blanks.refl _
  | @cons part a parts values written others ih =>
    cases others with
    | nil => exact ⟨_, close :: rest, rfl, written _, Blanks.refl _⟩
    | cons next more =>
      rw [commaSeparated, List.append_assoc, List.cons_append]
      · exact ⟨_, _, rfl, written _, ih.after_comma⟩
      · intro none
        cases none

theorem items_writeList {write : α → List Char} (written : ∀ a, Written item (write a) a)
    (values : List α) (rest : List Char) :
    Items ']' item true (commaSeparated (values.map write) ++ ']' :: rest) values rest := by
  refine items_commaSeparated ?_ rest
  exact List.forall₂_map_left_iff.mpr (List.forall₂_same.mpr fun a _ => written a)

theorem written_field {value : String → List Char → α → List Char → Prop} {name : String}
    {part : List Char} {a : α} (written : Written (value name) part a) :
    Written (Field value) (writeText name ++ ':' :: part) a := by
  intro rest
  rw [List.append_assoc, writeText_append]
  refine ⟨_, name.toList, _, _, Blanks.refl _, spells_write _ _, Blanks.refl _, ?_⟩
  rw [String.ofList_toList]
  exact written rest

end Items

end MetricCatalog.Json
