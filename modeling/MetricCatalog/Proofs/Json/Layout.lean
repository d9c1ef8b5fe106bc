import MetricCatalog.Json.Layout
import MetricCatalog.Proofs.Json.Nesting

/-!
# Lists and objects are read by the grammar

What is known of the reader of one element, or of one field, carries over to all of them: a list
or an object is read exactly when its items stand there with their punctuation. The fields of an
object may be refused by the state they are taken up into.
-/

namespace MetricCatalog.Json

open Text

variable {s t rest : List Char} {first : Bool}

theorem takeColon_iff : takeColon s = .ok rest ↔ Blanks s (':' :: rest) := by
  refine Iff.trans ?_ (skipBlanks_eq_cons_iff rfl)
  constructor
  · intro take
    rw [takeColon.eq_def] at take
    split at take <;> try contradiction
    next colon =>
      cases take
      exact colon
  · intro colon
    rw [takeColon, colon]
    rfl

/-- Reading a value after a colon, to make something of it. -/
theorem afterColon_iff {α β : Type} {read : Reader α} (make : α → β) {b : β} :
    (do
      let (a, rest) ← read (← takeColon s)
      return (make a, rest)) = Except.ok (b, rest) ↔
      ∃ a t, Blanks s (':' :: t) ∧ read t = .ok (a, rest) ∧ make a = b := by
  constructor
  · intro all
    obtain ⟨t, colon, all⟩ := exists_of_bind_ok all
    obtain ⟨⟨a, last⟩, read, same⟩ := exists_of_bind_ok all
    cases same
    exact ⟨a, t, takeColon_iff.mp colon, read, rfl⟩
  · rintro ⟨a, t, colon, read, rfl⟩
    rw [takeColon_iff.mpr colon]
    simp only [bind, Except.bind, read]
    rfl

/-- Passing over the value after a colon. -/
theorem skipAfterColon_iff {β : Type} {b c : β} (delimited : Delimited rest) :
    (do
      let rest ← skipValue (← takeColon s)
      return (b, rest)) = Except.ok (c, rest) ↔
      ∃ t, Blanks s (':' :: t) ∧ Spans .value t rest ∧ b = c := by
  constructor
  · intro all
    obtain ⟨t, colon, all⟩ := exists_of_bind_ok all
    obtain ⟨last, skip, same⟩ := exists_of_bind_ok all
    cases same
    exact ⟨t, takeColon_iff.mp colon, (skipValue_iff delimited).mp skip, rfl⟩
  · rintro ⟨t, colon, value, rfl⟩
    rw [takeColon_iff.mpr colon]
    simp only [bind, Except.bind, (skipValue_iff delimited).mpr value]
    rfl

theorem endList_iff : endList s = .ok rest ↔ Blanks s (']' :: rest) := by
  refine Iff.trans ?_ (skipBlanks_eq_cons_iff rfl)
  constructor
  · intro close
    rw [endList.eq_def] at close
    split at close
    · cases close
    · next found =>
      cases close
      exact found
    · split at close <;> cases close
    · cases close
  · intro close
    rw [endList, close]
    rfl

theorem endText_iff : endText s = .ok () ↔ Blanks s [] := by
  refine Iff.trans ?_ skipBlanks_eq_nil_iff
  rw [endText.eq_def]
  split
  · next none => exact iff_of_true rfl none
  · next some =>
    constructor
    · intro ended
      cases ended
    · intro none
      exact absurd none some

theorem readName_iff {name : String} :
    readName s = .ok (name, rest) ↔
      ∃ t text, s = '"' :: t ∧ Spells t text rest ∧ String.ofList text = name := by
  constructor
  · intro read
    rw [readName.eq_def] at read
    split at read
    · next t =>
      obtain ⟨⟨text, last⟩, read, same⟩ := exists_of_map_ok read
      cases same
      exact ⟨t, text, rfl, readText_iff.mp read, rfl⟩
    · cases read
  · rintro ⟨t, text, rfl, spells, rfl⟩
    rw [readName, readText_iff.mpr spells]
    rfl

theorem nextElement_close_iff :
    nextElement first s = .ok (false, rest) ↔ Blanks s (']' :: rest) := by
  refine Iff.trans ?_ (skipBlanks_eq_cons_iff rfl)
  constructor
  · intro next
    rw [nextElement.eq_def] at next
    split at next
    · cases next
    · next found =>
      cases next
      exact found
    · split at next
      · cases next
      · split at next
        · split at next <;> cases next
        · cases next
  · intro close
    rw [nextElement, close]
    rfl

/-- An element stands after its comma, if it needs one, and does not begin with the bracket. -/
theorem nextElement_item_iff :
    nextElement first s = .ok (true, rest) ↔
      ∃ t c u, Separated first s t ∧ skipBlanks whitespace t = rest ∧ rest = c :: u ∧ c ≠ ']' := by
  constructor
  · intro next
    rw [nextElement.eq_def] at next
    split at next
    · cases next
    · cases next
    · next c tail other found =>
      split at next
      · next start =>
        cases next
        cases start
        exact ⟨s, c, tail, rfl, found, rfl, other⟩
      · next later =>
        cases Bool.eq_false_iff.mpr later
        split at next
        · next comma =>
          subst comma
          split at next
          · cases next
          · cases next
          · next some unclosed =>
            cases next
            cases following : skipBlanks whitespace tail with
            | nil => exact absurd following some
            | cons d u =>
              refine ⟨tail, d, u, (skipBlanks_eq_cons_iff rfl).mp found, following, rfl, ?_⟩
              rintro rfl
              exact unclosed u following
        · cases next
  · rintro ⟨t, c, u, separated, found, rfl, other⟩
    cases first with
    | true =>
      cases separated
      rw [nextElement.eq_def, found]
      split <;> rename_i same <;> cases same
      · exact absurd rfl other
      · exact if_pos rfl
    | false =>
      rw [nextElement.eq_def, (skipBlanks_eq_cons_iff rfl).mpr separated]
      split
      · next none => cases none
      · next close => exact absurd (List.cons.inj close).1 (by decide)
      · next comma =>
        cases comma
        rw [if_neg Bool.false_ne_true, if_pos rfl, found]
        split
        · next none => cases none
        · next close => exact absurd (List.cons.inj close).1 other
        · rfl

theorem nextField_close_iff : nextField first s = .ok (none, rest) ↔ Blanks s ('}' :: rest) := by
  refine Iff.trans ?_ (skipBlanks_eq_cons_iff rfl)
  constructor
  · intro next
    rw [nextField.eq_def] at next
    split at next
    · cases next
    · next found =>
      cases next
      exact found
    · split at next
      · obtain ⟨named, -, same⟩ := exists_of_map_ok next
        cases same
      · split at next
        · split at next <;> try contradiction
          obtain ⟨named, -, same⟩ := exists_of_map_ok next
          cases same
        · cases next
  · intro close
    rw [nextField, close]
    rfl

/-- A field begins with its name after its comma, if it needs one. -/
theorem nextField_item_iff {name : String} :
    nextField first s = .ok (some name, rest) ↔
      ∃ t u text, Separated first s t ∧ Blanks t ('"' :: u) ∧ Spells u text rest ∧
        String.ofList text = name := by
  constructor
  · intro next
    rw [nextField.eq_def] at next
    split at next
    · cases next
    · cases next
    · next c tail other found =>
      split at next
      · next start =>
        cases start
        obtain ⟨⟨found', last⟩, read, same⟩ := exists_of_map_ok next
        cases same
        obtain ⟨u, text, quote, spells, same⟩ := readName_iff.mp read
        rw [quote] at found
        exact ⟨s, u, text, rfl, (skipBlanks_eq_cons_iff rfl).mp found, spells, same⟩
      · next later =>
        cases Bool.eq_false_iff.mpr later
        split at next
        · next comma =>
          subst comma
          have comma := (skipBlanks_eq_cons_iff rfl).mp found
          split at next <;> try contradiction
          obtain ⟨⟨found', last⟩, read, same⟩ := exists_of_map_ok next
          cases same
          obtain ⟨u, text, quote, spells, same⟩ := readName_iff.mp read
          exact ⟨tail, u, text, comma, (skipBlanks_eq_cons_iff rfl).mp quote, spells, same⟩
        · cases next
  · rintro ⟨t, u, text, separated, quote, spells, rfl⟩
    have read : readName ('"' :: u) = .ok (String.ofList text, rest) :=
      readName_iff.mpr ⟨u, text, rfl, spells, rfl⟩
    have quote := (skipBlanks_eq_cons_iff rfl).mpr quote
    cases first with
    | true =>
      cases separated
      rw [nextField, quote]
      change (readName ('"' :: u)).map _ = _
      rw [read]
      rfl
    | false =>
      rw [nextField.eq_def, (skipBlanks_eq_cons_iff rfl).mpr separated]
      split
      · next none => cases none
      · next close => exact absurd (List.cons.inj close).1 (by decide)
      · next comma =>
        cases comma
        rw [if_neg Bool.false_ne_true, if_pos rfl, quote]
        change (readName ('"' :: u)).map _ = _
        rw [read]
        rfl

section Items

variable {α σ : Type}

theorem Items.delimited {close : Char} {item : List Char → α → List Char → Prop}
    {values : List α} (known : close ∈ [']', '}']) (items : Items close item false s values rest) :
    Delimited s := by
  cases values with
  | nil => exact .of_blanks items (List.mem_cons_of_mem _ known)
  | cons a others =>
    obtain ⟨t, -, comma, -, -⟩ := items
    exact .of_blanks comma List.mem_cons_self

/-- What a reader takes off a text is an item of the grammar, wherever items may end. -/
structure Reads (read : Reader α) (item : List Char → α → List Char → Prop) : Prop where
  iff : ∀ {s a rest}, Delimited rest → (read s = .ok (a, rest) ↔ item s a rest)
  blanks : ∀ s, read (skipBlanks whitespace s) = read s
  head : ∀ {s a rest}, item s a rest → ∃ c t, skipBlanks whitespace s = c :: t ∧ c ≠ ']'

theorem ElementReader.readAll_eq (element : ElementReader α) (first : Bool) (s : List Char) :
    element.readAll first s =
      match nextElement first s with
      | .error fault => .error fault
      | .ok (false, rest) => .ok ([], rest)
      | .ok (true, rest) =>
        match element.read rest with
        | .error fault => .error fault
        | .ok (value, rest) =>
          (element.readAll false rest).map fun (values, rest) => (value :: values, rest) := by
  rw [readAll]
  split
  · next found => simp only [found]
  · next found => simp only [found]
  · next found =>
    simp only [found]
    split
    · next read => simp only [read]
    · next read => simp only [read]

theorem ElementReader.readAll_iff {element : ElementReader α}
    {item : List Char → α → List Char → Prop} (reads : Reads element.read item)
    {values : List α} :
    element.readAll first s = .ok (values, rest) ↔ Items ']' item first s values rest := by
  constructor
  · intro read
    fun_induction element.readAll first s generalizing values with
    | case1 => cases read
    | case2 first s last found =>
      cases read
      exact nextElement_close_iff.mp found
    | case3 => cases read
    | case4 first s tail found value more readValue _ _ ih =>
      obtain ⟨⟨others, last⟩, read, same⟩ := exists_of_map_ok read
      cases same
      obtain ⟨t, c, u, separated, rfl, -⟩ := nextElement_item_iff.mp found
      have items := ih read
      rw [reads.blanks] at readValue
      exact ⟨t, more, separated, (reads.iff (items.delimited (by simp))).mp readValue, items⟩
  · intro items
    induction values generalizing first s with
    | nil =>
      rw [element.readAll_eq, nextElement_close_iff.mpr items]
    | cons a others ih =>
      obtain ⟨t, u, separated, item, items⟩ := items
      obtain ⟨c, v, found, other⟩ := reads.head item
      have next := nextElement_item_iff.mpr ⟨t, c, v, separated, rfl, found, other⟩
      have readValue := (reads.iff (items.delimited (by simp))).mpr item
      rw [← reads.blanks] at readValue
      rw [element.readAll_eq, next]
      simp only [readValue, ih items, Except.map]

/-- What a reader takes off the text of a field is a value that its name calls for, if the state it
is taken up into allows it. -/
def FieldReader.Takes (field : FieldReader σ) (value : String → List Char → α → List Char → Prop)
    (step : σ → α → Option σ) : Prop :=
  ∀ {state next : σ} {name : String} {s rest : List Char}, Delimited rest →
    (field.read state name s = .ok (next, rest) ↔
      ∃ a t, Blanks s (':' :: t) ∧ value name t a rest ∧ step state a = some next)

theorem FieldReader.readAll_eq (field : FieldReader σ) (first : Bool) (state : σ)
    (s : List Char) :
    field.readAll first state s =
      match nextField first s with
      | .error fault => .error fault
      | .ok (none, rest) => .ok (state, rest)
      | .ok (some name, rest) =>
        match field.read state name rest with
        | .error fault => .error fault
        | .ok (next, rest) => field.readAll false next rest := by
  rw [readAll]
  split
  · next found => simp only [found]
  · next found => simp only [found]
  · next found =>
    simp only [found]
    split
    · next read => simp only [read]
    · next read => simp only [read]

theorem FieldReader.readAll_iff {field : FieldReader σ}
    {value : String → List Char → α → List Char → Prop} {step : σ → α → Option σ}
    (takes : field.Takes value step) {state final : σ} :
    field.readAll first state s = .ok (final, rest) ↔
      ∃ entries, Items '}' (Field value) first s entries rest ∧
        entries.foldlM step state = some final := by
  constructor
  · intro read
    fun_induction field.readAll first state s with
    | case1 => cases read
    | case2 first state s last found =>
      cases read
      exact ⟨[], nextField_close_iff.mp found, rfl⟩
    | case3 => cases read
    | case4 first state s name tail found next more readValue _ _ ih =>
      obtain ⟨entries, items, folded⟩ := ih read
      obtain ⟨t, u, text, separated, quote, spells, rfl⟩ := nextField_item_iff.mp found
      obtain ⟨a, v, colon, value, step⟩ := (takes (items.delimited (by simp))).mp readValue
      refine ⟨a :: entries, ⟨t, more, separated, ⟨u, text, tail, v, quote, spells, colon, value⟩,
        items⟩, ?_⟩
      rw [List.foldlM_cons, step]
      exact folded
  · rintro ⟨entries, items, folded⟩
    induction entries generalizing first s state with
    | nil =>
      cases folded
      rw [field.readAll_eq, nextField_close_iff.mpr items]
    | cons a others ih =>
      obtain ⟨t, u, separated, ⟨v, text, w, x, quote, spells, colon, value⟩, items⟩ := items
      rw [List.foldlM_cons] at folded
      obtain ⟨next, stepped, folded⟩ := Option.bind_eq_some_iff.mp folded
      have found := nextField_item_iff.mpr ⟨t, v, text, separated, quote, spells, rfl⟩
      have readValue := (takes (items.delimited (by simp))).mpr ⟨a, x, colon, value, stepped⟩
      rw [field.readAll_eq, found]
      simp only [readValue]
      exact ih items folded

end Items

end MetricCatalog.Json
