import MetricCatalog.Json.Nesting
import MetricCatalog.Proofs.Json.Number

/-!
# Any value is passed over, and nothing else

Skipping keeps the containers it is in as a list, the grammar nests them. `After` says what that
list still demands of the text, so that each accepting run has a derivation behind it. Conversely
a derivation is followed by induction: whatever the containers around it, skipping goes on where
the phrase ends.
-/

namespace MetricCatalog.Json

open Text

variable {s t u rest : List Char} {within : List Container}

theorem readLetters_iff {letters : List Char} :
    readLetters letters s = .ok rest ↔ s = letters ++ rest := by
  induction letters generalizing s with
  | nil =>
    rw [readLetters, List.nil_append]
    exact ⟨Except.ok.inj, congrArg Except.ok⟩
  | cons letter letters ih =>
    cases s with
    | nil =>
      constructor
      · intro read
        cases read
      · intro same
        cases same
    | cons c tail =>
      rw [readLetters, List.cons_append, List.cons.injEq]
      split
      · next same => rw [ih, and_iff_right same]
      · next other =>
        constructor
        · intro read
          cases read
        · rintro ⟨same, -⟩
          exact absurd same other

theorem skipName_iff : skipName s = .ok rest ↔ Named s rest := by
  constructor
  · intro skip
    rw [skipName.eq_def] at skip
    split at skip <;> try contradiction
    next tail quote =>
      obtain ⟨more, text, skip⟩ := exists_of_bind_ok skip
      split at skip <;> try contradiction
      next last colon =>
        cases skip
        exact ⟨tail, more, (skipBlanks_eq_cons_iff rfl).mp quote, skipText_iff.mp text,
          (skipBlanks_eq_cons_iff rfl).mp colon⟩
  · rintro ⟨t, u, quote, text, colon⟩
    rw [skipName, (skipBlanks_eq_cons_iff rfl).mpr quote]
    simp only [bind, Except.bind, skipText_iff.mpr text, (skipBlanks_eq_cons_iff rfl).mpr colon]

theorem skipName_skipBlanks (s : List Char) : skipName (skipBlanks whitespace s) = skipName s := by
  rw [skipName, skipBlanks_skipBlanks, skipName]

theorem skipOpening_skipBlanks (s : List Char) :
    skipOpening (skipBlanks whitespace s) = skipOpening s := by
  rw [skipOpening, skipBlanks_skipBlanks, skipOpening]

section Sound

theorem Spans.of_blanks {phrase : Phrase} (blanks : Blanks s t) (spans : Spans phrase t rest) :
    Spans phrase s rest := by
  induction spans generalizing s with
  | word known first => exact .word known (blanks.trans first)
  | string first quoted => exact .string (blanks.trans first) quoted
  | number first numeric => exact .number (blanks.trans first) numeric
  | emptyList first close => exact .emptyList (blanks.trans first) close
  | list first inside => exact .list (blanks.trans first) inside
  | emptyObject first close => exact .emptyObject (blanks.trans first) close
  | object first inside => exact .object (blanks.trans first) inside
  | lastElement _ close ih => exact .lastElement (ih blanks) close
  | element _ comma others ih _ => exact .element (ih blanks) comma others
  | lastField name value close =>
    obtain ⟨t, u, first, text, colon⟩ := name
    exact .lastField ⟨t, u, blanks.trans first, text, colon⟩ value close
  | field name value comma others =>
    obtain ⟨t, u, first, text, colon⟩ := name
    exact .field ⟨t, u, blanks.trans first, text, colon⟩ value comma others

/-- A whole value, or the start of a container up to its first value. -/
def Opens : Option Container → List Char → List Char → Prop
  | none, s, rest => Spans .value s rest
  | some .list, s, rest => ∃ t, Blanks s ('[' :: t) ∧ Blanks t rest
  | some .object, s, rest => ∃ t, Blanks s ('{' :: t) ∧ Named t rest

theorem opens_of_skip {entered : Option Container} (skip : skipOpening s = .ok (entered, rest)) :
    Opens entered s rest := by
  have token {c : Char} {tail : List Char} (found : skipBlanks whitespace s = c :: tail) :
      Blanks s (c :: tail) :=
    (skipBlanks_eq_cons_iff (contains_eq_false_of_skipBlanks found)).mp found
  have word {letters tail : List Char} {c : Char} (found : skipBlanks whitespace s = c :: tail)
      (known : c :: letters ∈ words)
      (read : (readLetters letters tail).map (none, ·) = .ok (entered, rest)) :
      Opens entered s rest := by
    obtain ⟨last, read, same⟩ := exists_of_map_ok read
    cases same
    rw [readLetters_iff.mp read] at found
    exact Spans.word known (token found)
  rw [skipOpening.eq_def] at skip
  split at skip
  · cases skip
  · next found => exact word found (by simp [words]) skip
  · next found => exact word found (by simp [words]) skip
  · next found => exact word found (by simp [words]) skip
  · next found =>
    obtain ⟨last, text, same⟩ := exists_of_map_ok skip
    cases same
    exact Spans.string (token found) (skipText_iff.mp text)
  · next found =>
    split at skip
    · cases skip
    · next close =>
      cases skip
      exact Spans.emptyList (token found) ((skipBlanks_eq_cons_iff rfl).mp close)
    · cases skip
      exact ⟨_, token found, blanks_skipBlanks _⟩
  · next tail found =>
    split at skip
    · cases skip
    · next close =>
      cases skip
      exact Spans.emptyObject (token found) ((skipBlanks_eq_cons_iff rfl).mp close)
    · obtain ⟨last, name, same⟩ := exists_of_map_ok skip
      cases same
      rw [skipName_skipBlanks] at name
      exact ⟨_, token found, skipName_iff.mp name⟩
  · next found =>
    split at skip
    · obtain ⟨last, number, same⟩ := exists_of_map_ok skip
      cases same
      exact Spans.number (token found) (numeric_of_skipNumber number)
    · cases skip

/-- What follows a value in a container, up to and including the closing of the container. -/
def Closes : Container → List Char → List Char → Prop
  | .list, s, rest =>
    Blanks s (']' :: rest) ∨ ∃ t, Blanks s (',' :: t) ∧ Spans .elements t rest
  | .object, s, rest =>
    Blanks s ('}' :: rest) ∨ ∃ t, Blanks s (',' :: t) ∧ Spans .fields t rest

/-- What follows a value in all the containers around it. -/
def After : List Container → List Char → List Char → Prop
  | [], s, rest => s = rest
  | container :: outer, s, rest => ∃ t, Closes container s t ∧ After outer t rest

theorem elements_of_closes (value : Spans .value s t) (closes : Closes .list t rest) :
    Spans .elements s rest := by
  rcases closes with close | ⟨u, comma, others⟩
  · exact .lastElement value close
  · exact .element value comma others

theorem fields_of_closes (name : Named s t) (value : Spans .value t u)
    (closes : Closes .object u rest) : Spans .fields s rest := by
  rcases closes with close | ⟨v, comma, others⟩
  · exact .lastField name value close
  · exact .field name value comma others

/-- Where closing stops, there is nothing left to close, or a further value is to follow. -/
def Resumes (within : List Container) (s : List Char) : List Container → List Char → Prop
  | [], t => After within s t
  | container :: outer, t =>
    ∀ u rest, Spans .value t u → After (container :: outer) u rest → After within s rest

theorem Resumes.close {container : Container} {outer left : List Container}
    (closes : Closes container s t) (further : Resumes outer t left u) :
    Resumes (container :: outer) s left u := by
  cases left with
  | nil => exact ⟨t, closes, further⟩
  | cons inner others =>
    intro v rest value after
    exact ⟨t, closes, further v rest value after⟩

theorem resumes_of_close {left : List Container}
    (closed : closeContainers within s = .ok (left, t)) : Resumes within s left t := by
  fun_induction closeContainers within s with
  | case1 =>
    cases closed
    rfl
  | case2 => cases closed
  | case3 outer s tail comma =>
    cases closed
    rintro u rest value ⟨v, closes, after⟩
    have comma := (skipBlanks_eq_cons_iff rfl).mp comma
    exact ⟨v, Or.inr ⟨_, comma, elements_of_closes value closes⟩, after⟩
  | case4 outer s tail close ih =>
    exact .close (Or.inl ((skipBlanks_eq_cons_iff rfl).mp close)) (ih closed)
  | case5 => cases closed
  | case6 => cases closed
  | case7 outer s tail comma =>
    obtain ⟨last, name, same⟩ := exists_of_map_ok closed
    cases same
    rintro u rest value ⟨v, closes, after⟩
    have comma := (skipBlanks_eq_cons_iff rfl).mp comma
    exact ⟨v, Or.inr ⟨tail, comma, fields_of_closes (skipName_iff.mp name) value closes⟩, after⟩
  | case8 outer s tail close ih =>
    exact .close (Or.inl ((skipBlanks_eq_cons_iff rfl).mp close)) (ih closed)
  | case9 => cases closed

/-- Every accepting run has a derivation behind it. -/
theorem spans_of_skip (skip : skipWithin within s = .ok rest) :
    ∃ t, Spans .value s t ∧ After within t rest := by
  fun_induction skipWithin within s with
  | case1 => cases skip
  | case2 within s container tail opening _ ih =>
    obtain ⟨u, value, v, closes, after⟩ := ih skip
    have opens := opens_of_skip opening
    cases container with
    | list =>
      obtain ⟨inside, bracket, blanks⟩ := opens
      exact ⟨v, .list bracket (elements_of_closes (value.of_blanks blanks) closes), after⟩
    | object =>
      obtain ⟨inside, brace, name⟩ := opens
      exact ⟨v, .object brace (fields_of_closes name value closes), after⟩
  | case3 => cases skip
  | case4 within s tail opening _ last closed =>
    cases skip
    exact ⟨tail, opens_of_skip opening, resumes_of_close closed⟩
  | case5 within s tail opening _ container outer more closed _ ih =>
    obtain ⟨u, value, after⟩ := ih skip
    exact ⟨tail, opens_of_skip opening, resumes_of_close closed u rest value after⟩

end Sound

section Complete

/-- How skipping goes on after a whole value. -/
def finish (within : List Container) (s : List Char) : Except Fault (List Char) :=
  match closeContainers within s with
  | .error fault => .error fault
  | .ok ([], rest) => .ok rest
  | .ok (container :: outer, rest) => skipWithin (container :: outer) rest

theorem skipWithin_eq (within : List Container) (s : List Char) :
    skipWithin within s =
      match skipOpening s with
      | .error fault => .error fault
      | .ok (some container, t) => skipWithin (container :: within) t
      | .ok (none, t) => finish within t := by
  rw [skipWithin]
  split
  · next opening => simp only [opening]
  · next opening => simp only [opening]
  · next opening =>
    simp only [opening, finish]
    split
    · next closed => simp only [closed]
    · next closed => simp only [closed]
    · next closed => simp only [closed]

theorem skipWithin_skipBlanks (within : List Container) (s : List Char) :
    skipWithin within (skipBlanks whitespace s) = skipWithin within s := by
  rw [skipWithin_eq, skipOpening_skipBlanks, ← skipWithin_eq]

theorem finish_list_close (close : Blanks s (']' :: rest)) :
    finish (.list :: within) s = finish within rest := by
  rw [finish, closeContainers, (skipBlanks_eq_cons_iff rfl).mpr close, finish]
  rfl

theorem finish_list_comma (comma : Blanks s (',' :: rest)) :
    finish (.list :: within) s = skipWithin (.list :: within) rest := by
  rw [finish, closeContainers, (skipBlanks_eq_cons_iff rfl).mpr comma]
  rfl

theorem finish_object_close (close : Blanks s ('}' :: rest)) :
    finish (.object :: within) s = finish within rest := by
  rw [finish, closeContainers, (skipBlanks_eq_cons_iff rfl).mpr close, finish]
  rfl

theorem finish_object_comma (comma : Blanks s (',' :: t)) (name : skipName t = .ok rest) :
    finish (.object :: within) s = skipWithin (.object :: within) rest := by
  rw [finish, closeContainers, (skipBlanks_eq_cons_iff rfl).mpr comma]
  simp only [name, Except.map]

theorem Numeric.head (numeric : Numeric s rest) :
    ∃ c t, s = c :: t ∧ (c = '-' ∨ c.isDigit = true) := by
  obtain ⟨minus, known, whole, fraction, exponent, hw, -, -, rfl⟩ := numeric
  obtain ⟨⟨some, all⟩, -⟩ := hw
  simp only [List.mem_cons, List.not_mem_nil, or_false] at known
  rcases known with rfl | rfl
  · cases whole with
    | nil => exact absurd rfl some
    | cons d tail => exact ⟨d, _, rfl, Or.inr (all d List.mem_cons_self)⟩
  · exact ⟨'-', _, rfl, Or.inl rfl⟩

theorem not_blank_of_number {c : Char} (first : c = '-' ∨ c.isDigit = true) :
    whitespace.contains c = false := by
  refine eq_false_of_ne_true fun blank => ?_
  have known : c ∈ [' ', '\n', '\t', '\r'] := List.contains_iff_mem.mp blank
  simp only [List.mem_cons, List.not_mem_nil, or_false] at known
  rcases known with rfl | rfl | rfl | rfl <;> simp at first

theorem skipOpening_word {word : List Char} (known : word ∈ words)
    (blanks : Blanks s (word ++ rest)) : skipOpening s = .ok (none, rest) := by
  have letters (l : List Char) : readLetters l (l.append rest) = .ok rest := readLetters_iff.mpr rfl
  simp only [words, List.mem_cons, List.not_mem_nil, or_false] at known
  rcases known with rfl | rfl | rfl
  all_goals
    rw [skipOpening, (skipBlanks_eq_cons_iff rfl).mpr blanks]
    simp only [letters, Except.map]

theorem skipOpening_string (blanks : Blanks s ('"' :: t)) (quoted : Quoted t rest) :
    skipOpening s = .ok (none, rest) := by
  rw [skipOpening, (skipBlanks_eq_cons_iff rfl).mpr blanks]
  simp only [skipText_iff.mpr quoted, Except.map]

theorem skipOpening_number (blanks : Blanks s t) (numeric : Numeric t rest)
    (delimited : Delimited rest) : skipOpening s = .ok (none, rest) := by
  obtain ⟨c, tail, rfl, first⟩ := numeric.head
  have token := not_blank_of_number first
  rw [skipOpening.eq_def, (skipBlanks_eq_cons_iff token).mpr blanks]
  split <;> rename_i same <;> cases same
  case h_8 =>
    rw [if_pos first, skipNumber_of_numeric numeric delimited]
    rfl
  all_goals simp at first

theorem skipOpening_emptyList (blanks : Blanks s ('[' :: t)) (close : Blanks t (']' :: rest)) :
    skipOpening s = .ok (none, rest) := by
  rw [skipOpening, (skipBlanks_eq_cons_iff rfl).mpr blanks]
  simp only [(skipBlanks_eq_cons_iff rfl).mpr close]

theorem skipOpening_emptyObject (blanks : Blanks s ('{' :: t)) (close : Blanks t ('}' :: rest)) :
    skipOpening s = .ok (none, rest) := by
  rw [skipOpening, (skipBlanks_eq_cons_iff rfl).mpr blanks]
  simp only [(skipBlanks_eq_cons_iff rfl).mpr close]

theorem skipOpening_object (blanks : Blanks s ('{' :: t)) (name : skipName t = .ok u) :
    skipOpening s = .ok (some .object, u) := by
  obtain ⟨v, w, quote, -, -⟩ := skipName_iff.mp name
  rw [← skipName_skipBlanks] at name
  rw [skipOpening, (skipBlanks_eq_cons_iff rfl).mpr blanks]
  rw [(skipBlanks_eq_cons_iff rfl).mpr quote] at name
  simp only [(skipBlanks_eq_cons_iff rfl).mpr quote]
  change (skipName ('"' :: v)).map (some Container.object, ·) = _
  rw [name]
  rfl

theorem Spans.head (spans : Spans .value s rest) :
    ∃ c t, skipBlanks whitespace s = c :: t ∧ c ≠ ']' := by
  cases spans with
  | word known blanks =>
    simp only [words, List.mem_cons, List.not_mem_nil, or_false] at known
    rcases known with rfl | rfl | rfl
    all_goals exact ⟨_, _, (skipBlanks_eq_cons_iff rfl).mpr blanks, by decide⟩
  | string blanks => exact ⟨_, _, (skipBlanks_eq_cons_iff rfl).mpr blanks, by decide⟩
  | number blanks numeric =>
    obtain ⟨c, t, rfl, first⟩ := numeric.head
    refine ⟨c, t, (skipBlanks_eq_cons_iff (not_blank_of_number first)).mpr blanks, ?_⟩
    rintro rfl
    simp at first
  | emptyList blanks => exact ⟨_, _, (skipBlanks_eq_cons_iff rfl).mpr blanks, by decide⟩
  | list blanks => exact ⟨_, _, (skipBlanks_eq_cons_iff rfl).mpr blanks, by decide⟩
  | emptyObject blanks => exact ⟨_, _, (skipBlanks_eq_cons_iff rfl).mpr blanks, by decide⟩
  | object blanks => exact ⟨_, _, (skipBlanks_eq_cons_iff rfl).mpr blanks, by decide⟩

theorem Spans.elements_head (spans : Spans .elements s rest) :
    ∃ c t, skipBlanks whitespace s = c :: t ∧ c ≠ ']' := by
  cases spans with
  | lastElement element => exact element.head
  | element element => exact element.head

theorem skipOpening_list (blanks : Blanks s ('[' :: t)) (inside : Spans .elements t rest) :
    skipOpening s = .ok (some .list, skipBlanks whitespace t) := by
  obtain ⟨c, u, found, other⟩ := inside.elements_head
  rw [skipOpening, (skipBlanks_eq_cons_iff rfl).mpr blanks]
  simp only [found]
  split
  · next none => cases none
  · next close => exact absurd (List.cons.inj close).1 other
  · rfl

/-- How a phrase is passed over, whatever containers are around it. -/
def Follows : Phrase → List Char → List Char → Prop
  | .value, s, t => Delimited t → ∀ within, skipWithin within s = finish within t
  | .elements, s, t => ∀ within, skipWithin (.list :: within) s = finish within t
  | .fields, s, t => ∀ within, ∃ u, skipName s = .ok u ∧
      skipWithin (.object :: within) u = finish within t

theorem follows_of_spans {phrase : Phrase} (spans : Spans phrase s t) : Follows phrase s t := by
  induction spans with
  | word known blanks =>
    intro _ within
    rw [skipWithin_eq, skipOpening_word known blanks]
  | string blanks quoted =>
    intro _ within
    rw [skipWithin_eq, skipOpening_string blanks quoted]
  | number blanks numeric =>
    intro delimited within
    rw [skipWithin_eq, skipOpening_number blanks numeric delimited]
  | emptyList blanks close =>
    intro _ within
    rw [skipWithin_eq, skipOpening_emptyList blanks close]
  | list blanks inside ih =>
    intro _ within
    rw [skipWithin_eq, skipOpening_list blanks inside]
    dsimp only
    rw [skipWithin_skipBlanks, ih within]
  | emptyObject blanks close =>
    intro _ within
    rw [skipWithin_eq, skipOpening_emptyObject blanks close]
  | object blanks _ ih =>
    intro _ within
    obtain ⟨u, name, goesOn⟩ := ih within
    rw [skipWithin_eq, skipOpening_object blanks name]
    exact goesOn
  | lastElement _ close ih =>
    intro within
    rw [ih (.of_blanks close (by simp)), finish_list_close close]
  | element _ comma _ ihValue ihOthers =>
    intro within
    rw [ihValue (.of_blanks comma (by simp)), finish_list_comma comma, ihOthers within]
  | lastField name _ close ih =>
    intro within
    refine ⟨_, skipName_iff.mpr name, ?_⟩
    rw [ih (.of_blanks close (by simp)), finish_object_close close]
  | field name _ comma _ ihValue ihOthers =>
    intro within
    obtain ⟨u, next, goesOn⟩ := ihOthers within
    refine ⟨_, skipName_iff.mpr name, ?_⟩
    rw [ihValue (.of_blanks comma (by simp)), finish_object_comma comma next, goesOn]

end Complete

/-- A value nobody asks for is passed over exactly when it is a value. -/
theorem skipValue_iff (delimited : Delimited rest) :
    skipValue s = .ok rest ↔ Spans .value s rest := by
  constructor
  · intro skip
    obtain ⟨t, spans, rfl⟩ := spans_of_skip skip
    exact spans
  · intro spans
    exact follows_of_spans spans delimited []

end MetricCatalog.Json
