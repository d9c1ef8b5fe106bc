import MetricCatalog.Json.Number
import MetricCatalog.Json.Text

/-!
# Values that are passed over

A value nobody asks for must still be a value. It is passed over with a list of the containers it
is in, innermost first, so that it may be nested to any depth.
-/

namespace MetricCatalog.Json

open Text (skipBlanks length_skipBlanks_le length_lt_of_skipBlanks)

/-- A list or an object that has been opened and not yet closed. -/
inductive Container where
  | list
  | object
  deriving DecidableEq, Repr

/-- Passes over the name of a field and the colon after it. -/
def skipName (s : List Char) : Except Fault (List Char) :=
  match skipBlanks whitespace s with
  | [] => .error (.here .endInObject [])
  | '"' :: rest => do
    let rest ← skipText rest
    match skipBlanks whitespace rest with
    | [] => .error (.here .endInObject [])
    | ':' :: rest => .ok rest
    | rest => .error (.next .colonExpected rest)
  | rest => .error (.next .nameExpected rest)

/-- Passes over a value that holds no other, or enters a container up to its first value. -/
def skipOpening (s : List Char) : Except Fault (Option Container × List Char) :=
  match skipBlanks whitespace s with
  | [] => .error (.here .endInValue [])
  | 'n' :: rest => (readLetters ['u', 'l', 'l'] rest).map (none, ·)
  | 't' :: rest => (readLetters ['r', 'u', 'e'] rest).map (none, ·)
  | 'f' :: rest => (readLetters ['a', 'l', 's', 'e'] rest).map (none, ·)
  | '"' :: rest => (skipText rest).map (none, ·)
  | '[' :: rest =>
    match skipBlanks whitespace rest with
    | [] => .error (.here .endInList [])
    | ']' :: rest => .ok (none, rest)
    | rest => .ok (some .list, rest)
  | '{' :: rest =>
    match skipBlanks whitespace rest with
    | [] => .error (.here .endInObject [])
    | '}' :: rest => .ok (none, rest)
    | rest => (skipName rest).map (some .object, ·)
  | c :: rest =>
    if c = '-' ∨ c.isDigit then (skipNumber (c :: rest)).map (none, ·)
    else .error (.next .valueExpected (c :: rest))

/-- After a whole value, closes containers until one goes on with a further value; that one and
those around it stay open. -/
def closeContainers : List Container → List Char → Except Fault (List Container × List Char)
  | [], s => .ok ([], s)
  | .list :: outer, s =>
    match skipBlanks whitespace s with
    | [] => .error (.here .endInList [])
    | ',' :: rest => .ok (.list :: outer, rest)
    | ']' :: rest => closeContainers outer rest
    | rest => .error (.next .listCommaExpected rest)
  | .object :: outer, s =>
    match skipBlanks whitespace s with
    | [] => .error (.here .endInObject [])
    | ',' :: rest => (skipName rest).map (.object :: outer, ·)
    | '}' :: rest => closeContainers outer rest
    | rest => .error (.next .objectCommaExpected rest)

theorem length_skipName {s rest : List Char} (h : skipName s = .ok rest) :
    rest.length < s.length := by
  unfold skipName at h
  split at h
  · contradiction
  · next tail heq =>
    obtain ⟨more, ht, h⟩ := exists_of_bind_ok h
    have h1 := length_lt_of_skipBlanks heq
    have h2 := length_skipText ht
    split at h
    · contradiction
    · next last heq' =>
      have h3 := length_lt_of_skipBlanks heq'
      obtain rfl := Except.ok.inj h
      omega
    · contradiction
  · contradiction

theorem length_skipOpening {s rest : List Char} {entered : Option Container}
    (h : skipOpening s = .ok (entered, rest)) : rest.length < s.length := by
  unfold skipOpening at h
  split at h
  · contradiction
  case h_6 tail heq =>
    have h1 := length_lt_of_skipBlanks heq
    have h2 := length_skipBlanks_le whitespace tail
    split at h
    · contradiction
    · next last heq' =>
      have h3 := length_lt_of_skipBlanks heq'
      obtain ⟨-, rfl⟩ := Prod.mk.inj (Except.ok.inj h)
      omega
    · obtain ⟨-, rfl⟩ := Prod.mk.inj (Except.ok.inj h)
      omega
  case h_7 tail heq =>
    have h1 := length_lt_of_skipBlanks heq
    have h2 := length_skipBlanks_le whitespace tail
    split at h
    · contradiction
    · next last heq' =>
      have h3 := length_lt_of_skipBlanks heq'
      obtain ⟨-, rfl⟩ := Prod.mk.inj (Except.ok.inj h)
      omega
    · obtain ⟨last, hn, hpair⟩ := exists_of_map_ok h
      obtain ⟨-, rfl⟩ := Prod.mk.inj hpair
      have h3 := length_skipName hn
      omega
  case h_5 tail heq =>
    obtain ⟨last, ht, hpair⟩ := exists_of_map_ok h
    obtain ⟨-, rfl⟩ := Prod.mk.inj hpair
    have h1 := length_lt_of_skipBlanks heq
    have h2 := length_skipText ht
    omega
  case h_8 c tail _ _ _ _ _ _ heq =>
    have h1 := length_skipBlanks_le whitespace s
    split at h
    · obtain ⟨last, hn, hpair⟩ := exists_of_map_ok h
      obtain ⟨-, rfl⟩ := Prod.mk.inj hpair
      have h2 := length_skipNumber hn
      rw [← heq] at h2
      omega
    · contradiction
  all_goals
    next tail heq =>
      obtain ⟨last, hl, hpair⟩ := exists_of_map_ok h
      obtain ⟨-, rfl⟩ := Prod.mk.inj hpair
      have h1 := length_lt_of_skipBlanks heq
      have h2 := length_readLetters hl
      omega

theorem length_closeContainers {within left : List Container} {s rest : List Char}
    (h : closeContainers within s = .ok (left, rest)) : rest.length ≤ s.length := by
  fun_induction closeContainers within s with
  | case1 => simp_all
  | case2 => contradiction
  | case3 outer s tail heq =>
    obtain ⟨-, rfl⟩ := Prod.mk.inj (Except.ok.inj h)
    exact Nat.le_of_lt (length_lt_of_skipBlanks heq)
  | case4 outer s tail heq ih =>
    exact Nat.le_trans (ih h) (Nat.le_of_lt (length_lt_of_skipBlanks heq))
  | case5 => contradiction
  | case6 => contradiction
  | case7 outer s tail heq =>
    obtain ⟨last, hn, hpair⟩ := exists_of_map_ok h
    obtain ⟨-, rfl⟩ := Prod.mk.inj hpair
    have h1 := length_lt_of_skipBlanks heq
    have h2 := length_skipName hn
    omega
  | case8 outer s tail heq ih =>
    exact Nat.le_trans (ih h) (Nat.le_of_lt (length_lt_of_skipBlanks heq))
  | case9 => contradiction

/-- Passes over a value and what closes the containers it is in. -/
def skipWithin (within : List Container) (s : List Char) : Except Fault (List Char) :=
  match h : skipOpening s with
  | .error fault => .error fault
  | .ok (some container, rest) =>
    have := length_skipOpening h
    skipWithin (container :: within) rest
  | .ok (none, rest) =>
    have := length_skipOpening h
    match h' : closeContainers within rest with
    | .error fault => .error fault
    | .ok ([], rest) => .ok rest
    | .ok (container :: outer, rest) =>
      have := length_closeContainers h'
      skipWithin (container :: outer) rest
termination_by s.length

/-- Passes over one value. -/
def skipValue (s : List Char) : Except Fault (List Char) :=
  skipWithin [] s

theorem length_skipWithin {within : List Container} {s rest : List Char}
    (h : skipWithin within s = .ok rest) : rest.length < s.length := by
  fun_induction skipWithin within s with
  | case1 => contradiction
  | case2 within s container tail hx _ ih =>
    have := ih h
    omega
  | case3 => contradiction
  | case4 within s tail hx hlt last hc =>
    obtain rfl := Except.ok.inj h
    have := length_closeContainers hc
    omega
  | case5 within s tail hx hlt container outer more hc _ ih =>
    have := ih h
    have := length_closeContainers hc
    omega

end MetricCatalog.Json
