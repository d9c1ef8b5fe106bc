import MetricCatalog.Json.Nesting

/-!
# Lists and objects of known shape

The punctuation of lists and objects whose contents are wanted: what may stand between two
elements, between two fields, between a field's name and its value, and after the last one.
-/

namespace MetricCatalog.Json

open Text (skipBlanks length_skipBlanks_le length_lt_of_skipBlanks)

/-- Goes on to the next element of a list, or takes the closing bracket. -/
def nextElement (first : Bool) (s : List Char) : Except Fault (Bool × List Char) :=
  match skipBlanks whitespace s with
  | [] => .error (.here .endInList [])
  | ']' :: rest => .ok (false, rest)
  | c :: rest =>
    if first then .ok (true, c :: rest)
    else if c = ',' then
      match skipBlanks whitespace rest with
      | [] => .error (.here .endInValue [])
      | ']' :: rest => .error (.next .trailingComma (']' :: rest))
      | rest => .ok (true, rest)
    else .error (.next .listCommaExpected (c :: rest))

/-- Reads the name of a field. -/
def readName (s : List Char) : Except Fault (String × List Char) :=
  match s with
  | '"' :: rest => (readText rest).map fun (text, rest) => (String.ofList text, rest)
  | _ => .error (.next .nameExpected s)

/-- Goes on to the next field of an object and reads its name, or takes the closing brace. -/
def nextField (first : Bool) (s : List Char) : Except Fault (Option String × List Char) :=
  match skipBlanks whitespace s with
  | [] => .error (.here .endInObject [])
  | '}' :: rest => .ok (none, rest)
  | c :: rest =>
    if first then (readName (c :: rest)).map fun (name, rest) => (some name, rest)
    else if c = ',' then
      match skipBlanks whitespace rest with
      | [] => .error (.here .endInValue [])
      | '}' :: rest => .error (.next .trailingComma ('}' :: rest))
      | rest => (readName rest).map fun (name, rest) => (some name, rest)
    else .error (.next .objectCommaExpected (c :: rest))

/-- Takes the colon after a field's name. -/
def takeColon (s : List Char) : Except Fault (List Char) :=
  match skipBlanks whitespace s with
  | [] => .error (.here .endInObject [])
  | ':' :: rest => .ok rest
  | rest => .error (.next .colonExpected rest)

/-- Takes the closing bracket of a list that has all its elements. -/
def endList (s : List Char) : Except Fault (List Char) :=
  match skipBlanks whitespace s with
  | [] => .error (.here .endInList [])
  | ']' :: rest => .ok rest
  | ',' :: rest =>
    match skipBlanks whitespace rest with
    | ']' :: rest => .error (.next .trailingComma (']' :: rest))
    | rest => .error (.next .trailingCharacters rest)
  | rest => .error (.next .trailingCharacters rest)

/-- After the value nothing may stand but blanks. -/
def endText (s : List Char) : Except Fault Unit :=
  match skipBlanks whitespace s with
  | [] => .ok ()
  | rest => .error (.next .trailingCharacters rest)

/-- The fault of a field that stands in an object for the second time. If the object ends after
the name, its brace is taken too. -/
def duplicateField (name : String) (s : List Char) : Fault :=
  match skipBlanks whitespace s with
  | '}' :: rest => .here (.duplicateField name) rest
  | rest => .here (.duplicateField name) rest

/-- The fault of a value that is not of the kind expected. A scalar is read in full first, so a
fault in it comes before the complaint about its kind. -/
def wrongKind (expected : String) (s : List Char) : Fault :=
  let scalar {α : Type} (found : α → Found) (read : Except Fault (α × List Char)) : Fault :=
    match read with
    | .ok (value, rest) => .here (.wrongKind (found value) expected) rest
    | .error fault => fault
  let word (found : Found) (letters rest : List Char) : Fault :=
    scalar (fun _ => found) ((readLetters letters rest).map ((), ·))
  match skipBlanks whitespace s with
  | [] => .here .endInValue []
  | 'n' :: rest => word .null ['u', 'l', 'l'] rest
  | 't' :: rest => word (.boolean true) ['r', 'u', 'e'] rest
  | 'f' :: rest => word (.boolean false) ['a', 'l', 's', 'e'] rest
  | '"' :: rest => scalar (fun text => .string (String.ofList text)) (readText rest)
  | '[' :: rest => .here (.wrongKind .sequence expected) ('[' :: rest)
  | '{' :: rest => .here (.wrongKind .map expected) ('{' :: rest)
  | c :: rest =>
    if c = '-' ∨ c.isDigit then
      scalar (fun | .integer n => .integer n | .decimal x => .decimal x) (readNumber (c :: rest))
    else .next .valueExpected (c :: rest)

theorem length_nextElement {first more : Bool} {s rest : List Char}
    (h : nextElement first s = .ok (more, rest)) : rest.length ≤ s.length := by
  have h0 := length_skipBlanks_le whitespace s
  unfold nextElement at h
  split at h
  · contradiction
  · next tail heq =>
    obtain ⟨-, rfl⟩ := Prod.mk.inj (Except.ok.inj h)
    exact Nat.le_of_lt (length_lt_of_skipBlanks heq)
  · next c tail _ heq =>
    split at h
    · obtain ⟨-, rfl⟩ := Prod.mk.inj (Except.ok.inj h)
      exact heq ▸ h0
    · split at h
      · have h1 := length_lt_of_skipBlanks heq
        have h2 := length_skipBlanks_le whitespace tail
        split at h
        · contradiction
        · contradiction
        · obtain ⟨-, rfl⟩ := Prod.mk.inj (Except.ok.inj h)
          omega
      · contradiction

theorem length_readName {s rest : List Char} {name : String}
    (h : readName s = .ok (name, rest)) : rest.length < s.length := by
  unfold readName at h
  split at h
  · obtain ⟨⟨text, last⟩, ht, hpair⟩ := exists_of_map_ok h
    obtain ⟨-, rfl⟩ := Prod.mk.inj hpair
    have := length_readText ht
    simp only [List.length_cons]
    omega
  · contradiction

theorem length_nextField {first : Bool} {s rest : List Char} {name : Option String}
    (h : nextField first s = .ok (name, rest)) : rest.length < s.length := by
  have h0 := length_skipBlanks_le whitespace s
  unfold nextField at h
  split at h
  · contradiction
  · next tail heq =>
    obtain ⟨-, rfl⟩ := Prod.mk.inj (Except.ok.inj h)
    exact length_lt_of_skipBlanks heq
  · next c tail _ heq =>
    split at h
    · obtain ⟨⟨found, last⟩, hn, hpair⟩ := exists_of_map_ok h
      obtain ⟨-, rfl⟩ := Prod.mk.inj hpair
      have := length_readName hn
      rw [← heq] at this
      omega
    · split at h
      · have h1 := length_lt_of_skipBlanks heq
        have h2 := length_skipBlanks_le whitespace tail
        split at h
        · contradiction
        · contradiction
        · obtain ⟨⟨found, last⟩, hn, hpair⟩ := exists_of_map_ok h
          obtain ⟨-, rfl⟩ := Prod.mk.inj hpair
          have := length_readName hn
          omega
      · contradiction

theorem length_takeColon {s rest : List Char} (h : takeColon s = .ok rest) :
    rest.length < s.length := by
  unfold takeColon at h
  split at h
  · contradiction
  · next tail heq =>
    obtain rfl := Except.ok.inj h
    exact length_lt_of_skipBlanks heq
  · contradiction

theorem length_endList {s rest : List Char} (h : endList s = .ok rest) :
    rest.length < s.length := by
  unfold endList at h
  split at h
  · contradiction
  · next tail heq =>
    obtain rfl := Except.ok.inj h
    exact length_lt_of_skipBlanks heq
  · split at h <;> contradiction
  · contradiction

/-- A reader whose values take up some of the text. -/
structure ElementReader (α : Type) where
  read : Reader α
  shortens : ∀ {s rest : List Char} {a : α}, read s = .ok (a, rest) → rest.length < s.length

/-- How the fields of an object are taken up into a state, each after its name. -/
structure FieldReader (σ : Type) where
  read : σ → String → Reader σ
  shortens : ∀ {state next : σ} {name : String} {s rest : List Char},
    read state name s = .ok (next, rest) → rest.length < s.length

/-- Reads the elements of a list up to and including its closing bracket. -/
def ElementReader.readAll {α : Type} (element : ElementReader α) (first : Bool) (s : List Char) :
    Except Fault (List α × List Char) :=
  match h : nextElement first s with
  | .error fault => .error fault
  | .ok (false, rest) => .ok ([], rest)
  | .ok (true, rest) =>
    match h' : element.read rest with
    | .error fault => .error fault
    | .ok (value, rest) =>
      have := length_nextElement h
      have := element.shortens h'
      (element.readAll false rest).map fun (values, rest) => (value :: values, rest)
termination_by s.length

/-- Reads the fields of an object up to and including its closing brace. -/
def FieldReader.readAll {σ : Type} (field : FieldReader σ) (first : Bool) (state : σ)
    (s : List Char) : Except Fault (σ × List Char) :=
  match h : nextField first s with
  | .error fault => .error fault
  | .ok (none, rest) => .ok (state, rest)
  | .ok (some name, rest) =>
    match h' : field.read state name rest with
    | .error fault => .error fault
    | .ok (next, rest) =>
      have := length_nextField h
      have := field.shortens h'
      field.readAll false next rest
termination_by s.length

theorem ElementReader.length_readAll {α : Type} {element : ElementReader α} {first : Bool}
    {s rest : List Char} {values : List α} (h : element.readAll first s = .ok (values, rest)) :
    rest.length ≤ s.length := by
  fun_induction element.readAll first s generalizing values with
  | case1 => contradiction
  | case2 first s last hn =>
    obtain ⟨-, rfl⟩ := Prod.mk.inj (Except.ok.inj h)
    exact length_nextElement hn
  | case3 => contradiction
  | case4 first s tail hn value more hv h1 h2 ih =>
    obtain ⟨⟨others, last⟩, ho, hpair⟩ := exists_of_map_ok h
    obtain ⟨-, rfl⟩ := Prod.mk.inj hpair
    have := ih ho
    omega

theorem FieldReader.length_readAll {σ : Type} {field : FieldReader σ} {first : Bool}
    {state final : σ} {s rest : List Char}
    (h : field.readAll first state s = .ok (final, rest)) : rest.length < s.length := by
  fun_induction field.readAll first state s with
  | case1 => contradiction
  | case2 first state s last hn =>
    obtain ⟨-, rfl⟩ := Prod.mk.inj (Except.ok.inj h)
    exact length_nextField hn
  | case3 => contradiction
  | case4 first state s name tail hn next more hv h1 h2 ih =>
    have := ih h
    omega

end MetricCatalog.Json
