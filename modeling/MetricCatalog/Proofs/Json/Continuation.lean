import MetricCatalog.Proofs.Json.Grammar

/-!
# What stands at the front of a text stays there

The grammar looks at nothing beyond the part it describes: a text that begins with some value still
begins with it when characters are added at its end, and they are added to the rest. Numbers are no
exception, since the grammar asks nowhere that a number be as long as it can be; where a value may
end is a matter of what has to follow it.
-/

namespace MetricCatalog.Json

open Text

variable {s t rest : List Char}

theorem FourHex.append {n : Nat} (hex : FourHex s n rest) (more : List Char) :
    FourHex (s ++ more) n (rest ++ more) := by
  obtain ⟨digits, length, all, value, rfl⟩ := hex
  exact ⟨digits, length, all, value, List.append_assoc ..⟩

theorem Spells.append {text : List Char} (spells : Spells s text rest) (more : List Char) :
    Spells (s ++ more) text (rest ++ more) := by
  induction spells with
  | close => exact .close
  | plain self _ ih => exact .plain self ih
  | short escape _ ih => exact .short escape ih
  | code value _ ih => exact .code (value.append more) ih
  | pair halves leading trailing _ ih =>
    exact .pair halves (leading.append more) (trailing.append more) ih

theorem Quoted.append (quoted : Quoted s rest) (more : List Char) :
    Quoted (s ++ more) (rest ++ more) := by
  induction quoted with
  | close => exact .close
  | plain self _ ih => exact .plain self ih
  | short escape _ ih => exact .short escape ih
  | code value _ ih => exact .code (value.append more) ih

theorem Named.append (named : Named s rest) (more : List Char) :
    Named (s ++ more) (rest ++ more) := by
  obtain ⟨t, u, quote, quoted, colon⟩ := named
  exact ⟨t ++ more, u ++ more, quote.append more, quoted.append more, colon.append more⟩

theorem Numeric.append (numeric : Numeric s rest) (more : List Char) :
    Numeric (s ++ more) (rest ++ more) := by
  obtain ⟨minus, sign, whole, fraction, exponent, hw, hf, he, rfl⟩ := numeric
  exact ⟨minus, sign, whole, fraction, exponent, hw, hf, he, List.append_assoc ..⟩

theorem Integer.append {n : Int64} (integer : Integer s n rest) (more : List Char) :
    Integer (s ++ more) n (rest ++ more) := by
  obtain ⟨digits, whole, ⟨rfl, value⟩ | ⟨rfl, some, value⟩⟩ := integer
  · exact ⟨digits, whole, Or.inl ⟨List.append_assoc .., value⟩⟩
  · exact ⟨digits, whole, Or.inr ⟨List.append_assoc .., some, value⟩⟩

theorem Spans.append {phrase : Phrase} (spans : Spans phrase s rest) (more : List Char) :
    Spans phrase (s ++ more) (rest ++ more) := by
  induction spans with
  | @word word s rest known blanks =>
    have blanks := blanks.append more
    rw [List.append_assoc] at blanks
    exact .word known blanks
  | string blanks quoted => exact .string (blanks.append more) (quoted.append more)
  | number blanks numeric => exact .number (blanks.append more) (numeric.append more)
  | emptyList blanks close => exact .emptyList (blanks.append more) (close.append more)
  | list blanks _ ih => exact .list (blanks.append more) ih
  | emptyObject blanks close => exact .emptyObject (blanks.append more) (close.append more)
  | object blanks _ ih => exact .object (blanks.append more) ih
  | lastElement _ close ih => exact .lastElement ih (close.append more)
  | element _ comma _ ihValue ihOthers => exact .element ihValue (comma.append more) ihOthers
  | lastField name _ close ih => exact .lastField (name.append more) ih (close.append more)
  | field name _ comma _ ihValue ihOthers =>
    exact .field (name.append more) ihValue (comma.append more) ihOthers

section Items

variable {α : Type}

/-- Items of the grammar that do not depend on what follows them. -/
def Continues (item : List Char → α → List Char → Prop) : Prop :=
  ∀ {s a rest}, item s a rest → ∀ more, item (s ++ more) a (rest ++ more)

theorem Separated.append {first : Bool} (separated : Separated first s t) (more : List Char) :
    Separated first (s ++ more) (t ++ more) := by
  cases first with
  | true => exact congrArg (· ++ more) separated
  | false => exact Blanks.append separated more

theorem continues_items {item : List Char → α → List Char → Prop} (continues : Continues item)
    (close : Char) (first : Bool) : Continues (Items close item first) := by
  intro s values rest items more
  induction values generalizing first s with
  | nil => exact Blanks.append items more
  | cons a others ih =>
    obtain ⟨t, u, separated, item, items⟩ := items
    exact ⟨t ++ more, u ++ more, separated.append more, continues item more, ih false items⟩

theorem continues_field {value : String → List Char → α → List Char → Prop}
    (continues : ∀ name, Continues (value name)) : Continues (Field value) := by
  rintro s a rest ⟨t, name, u, v, quote, spells, colon, text⟩ more
  exact ⟨t ++ more, name, u ++ more, v ++ more, quote.append more, spells.append more,
    colon.append more, continues _ text more⟩

end Items

end MetricCatalog.Json
