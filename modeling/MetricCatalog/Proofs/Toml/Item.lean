import MetricCatalog.Proofs.Toml.Value
import MetricCatalog.Toml.Document

/-!
# What tables hold after assignments

A table is known by its names and by what is found under each. New names go to the end; a table of
dotted keys is found again under its name and takes up a further entry, while all else stays as it
is.
-/

namespace MetricCatalog.Toml

section Names

variable {first last : String} {path : List Key} {key : Key}

theorem keyNames_eq_singleton (names : keyNames path key = [last]) :
    path = [] ∧ key.name = last := by
  cases path with
  | nil => exact ⟨rfl, (List.cons.inj names).1⟩
  | cons other path => simp [keyNames] at names

theorem keyNames_eq_pair (names : keyNames path key = [first, last]) :
    ∃ way, path = [way] ∧ way.name = first ∧ key.name = last := by
  cases path with
  | nil => simp [keyNames] at names
  | cons way path =>
    obtain ⟨same, names⟩ := List.cons.inj names
    obtain ⟨rfl, named⟩ := keyNames_eq_singleton names
    exact ⟨way, rfl, same, named⟩

end Names

namespace Entries

variable {entries inner : Entries} {label : Label} {item : Item} {name : String}

/-- The names of the entries, in order. -/
def names (entries : Entries) : List String := entries.map fun entry => entry.1.name

theorem find?_cons (name : String) (entry : Label × Item) (entries : Entries) :
    find? name (entry :: entries) =
      if entry.1.name = name then some entry.2 else find? name entries := by
  rw [find?, List.find?_cons]
  by_cases same : entry.1.name = name
  · simp [same]
  · simp [same, find?]

theorem find?_concat (name : String) (entries : Entries) (label : Label) (item : Item) :
    find? name (entries ++ [(label, item)]) =
      (find? name entries).or (if label.name = name then some item else none) := by
  induction entries with
  | nil => simp [find?]
  | cons entry entries ih =>
    rw [List.cons_append, find?_cons, find?_cons, ih]
    split <;> rfl

theorem find?_eq_none_iff : find? name entries = none ↔ name ∉ names entries := by
  simp only [find?, names, Option.map_eq_none_iff, List.find?_eq_none, List.mem_map,
    decide_eq_true_eq, not_exists, not_and]

theorem nodup_concat (distinct : (names entries).Nodup) (fresh : label.name ∉ names entries) :
    (names (entries ++ [(label, item)])).Nodup := by
  rw [names, List.map_append, List.nodup_append]
  refine ⟨distinct, List.pairwise_singleton .., ?_⟩
  rintro name here _ last rfl
  obtain rfl := List.mem_singleton.mp last
  exact fresh here

theorem addNew_of_fresh (fresh : label.name ∉ names entries) :
    addNew label item entries = some (entries ++ [(label, item)]) := by
  rw [addNew, find?_eq_none_iff.mpr fresh]
  rfl

section Alter

variable {present : Label → Item → Option (Label × Item)} {absent : Option (Label × Item)}

theorem alter_of_fresh (fresh : name ∉ names entries) :
    alter name present absent entries = absent.map fun new => entries ++ [new] := by
  induction entries with
  | nil => rfl
  | cons entry entries ih =>
    obtain ⟨other, fresh⟩ := not_or.mp (List.mem_cons.not.mp fresh)
    rw [alter, if_neg (Ne.symm other), ih fresh, Option.map_map]
    rfl

/-- A changed entry keeps its place, and the others are left alone. -/
theorem alter_of_found {changed : Item} (found : find? name entries = some item)
    (change : ∀ label, present label item = some (label, changed)) :
    ∃ after, alter name present absent entries = some after ∧ names after = names entries ∧
      ∀ other, find? other after = if other = name then some changed else find? other entries := by
  induction entries with
  | nil => cases found
  | cons entry entries ih =>
    rw [find?_cons] at found
    split at found
    · next same =>
      cases found
      refine ⟨(entry.1, changed) :: entries, ?_, rfl, fun other => ?_⟩
      · rw [alter, if_pos same, change]
        rfl
      · rw [find?_cons, find?_cons, same]
        by_cases here : other = name
        · simp [here]
        · simp [here, Ne.symm here]
    · next different =>
      obtain ⟨after, altered, kept, known⟩ := ih found
      refine ⟨entry :: after, ?_, congrArg (entry.1.name :: ·) kept, fun other => ?_⟩
      · rw [alter, if_neg different, altered]
        rfl
      · rw [find?_cons, find?_cons, known]
        by_cases here : other = name
        · rw [here, if_neg different, if_pos rfl, if_pos rfl]
        · rw [if_neg here, if_neg here]

end Alter

section Dotted

variable {way : Key}

/-- The first entry under a dotted key makes its table. -/
theorem assign_of_fresh (fresh : way.name ∉ names entries) :
    assign [way] label item entries =
      some (entries ++ [(way.label, .table .dotted [(label, item)])]) := by
  rw [assign, alter_of_fresh fresh]
  rfl

/-- A further entry under a dotted key goes to the end of its table. -/
theorem assign_of_found (found : find? way.name entries = some (.table .dotted inner))
    (fresh : label.name ∉ names inner) (item : Item) :
    ∃ after, assign [way] label item entries = some after ∧ names after = names entries ∧
      ∀ other, find? other after =
        if other = way.name then some (.table .dotted (inner ++ [(label, item)]))
        else find? other entries := by
  rw [assign]
  refine alter_of_found found fun present => ?_
  dsimp only
  rw [assign, addNew_of_fresh fresh]
  rfl

end Dotted

theorem openTable_of_fresh {fill : Entries → Option Entries} (fresh : label.name ∉ names entries)
    (filled : fill [] = some inner) :
    openTable label fill entries = some (entries ++ [(label, .table .header inner)]) := by
  rw [openTable, find?_eq_none_iff.mpr fresh]
  simp only [filled, Option.map_some]

/-- The entries are these strings under these names, in order. -/
def Hold (entries : Entries) (strings : List (String × String)) : Prop :=
  entries.map (fun entry => (entry.1.name, entry.2)) =
    strings.map fun entry => (entry.1, .string entry.2)

theorem Hold.names {strings : List (String × String)} (hold : Hold entries strings) :
    names entries = strings.map Prod.fst := by
  have same := congrArg (List.map Prod.fst) hold
  rw [List.map_map, List.map_map] at same
  exact same

theorem Hold.concat {strings : List (String × String)} (hold : Hold entries strings)
    (label : Label) (value : String) :
    Hold (entries ++ [(label, .string value)]) (strings ++ [(label.name, value)]) := by
  rw [Hold, List.map_append, List.map_append, hold]
  rfl

end Entries

section Assignments

variable {a : Assignment} {names : List String} {name : String} {means : Item → Prop}

theorem Assignment.Gives.label (gives : a.Gives [name] means) : a.label.name = name :=
  (keyNames_eq_singleton gives.1).2

/-- Under a key of one new name the item becomes the last entry. -/
theorem Assignment.Gives.apply {entries : Entries} (gives : a.Gives [name] means)
    (fresh : name ∉ Entries.names entries) :
    a.apply entries = some (entries ++ [(a.label, a.item)]) := by
  rw [Assignment.apply, (keyNames_eq_singleton gives.1).1]
  exact Entries.addNew_of_fresh (by rwa [gives.label])

end Assignments

/-- Strings assigned under different names are entries in the same order. -/
theorem applyAll_strings {made : List Assignment} {strings : List (String × String)}
    (given : List.Forall₂ (fun a entry => a.Gives [entry.1] (· = .string entry.2)) made strings)
    (distinct : (strings.map Prod.fst).Nodup) :
    ∃ entries, applyAll made [] = some entries ∧ Entries.Hold entries strings := by
  suffices further : ∀ (before : Entries) (done : List (String × String)),
      Entries.Hold before done → ((done ++ strings).map Prod.fst).Nodup →
      ∃ entries, applyAll made before = some entries ∧ Entries.Hold entries (done ++ strings) from
    further [] [] rfl distinct
  clear distinct
  induction given with
  | nil =>
    intro before done hold _
    exact ⟨before, rfl, by rwa [List.append_nil]⟩
  | @cons a entry made strings gives _ ih =>
    intro before done hold distinct
    have fresh : entry.1 ∉ Entries.names before := by
      rw [hold.names]
      rw [List.map_append, List.map_cons, List.nodup_append] at distinct
      exact fun here => distinct.2.2 _ here _ List.mem_cons_self rfl
    have added := hold.concat a.label entry.2
    rw [gives.label] at added
    obtain ⟨entries, applied, holds⟩ := ih _ _ added (by rwa [List.append_assoc])
    refine ⟨entries, ?_, by rwa [List.append_assoc] at holds⟩
    rw [applyAll, List.foldlM_cons, gives.apply fresh, gives.2]
    exact applied

/-- A header with one name opens a table under it and fills it. -/
theorem Section.apply_of_fresh {part : Section} {name : String} {entries inner : Entries}
    (single : part.header.isElement = false)
    (names : keyNames part.header.path part.header.key = [name])
    (fresh : name ∉ Entries.names entries) (filled : applyAll part.assignments [] = some inner) :
    part.apply entries = some (entries ++ [(part.label, .table .header inner)]) := by
  obtain ⟨direct, named⟩ := keyNames_eq_singleton names
  rw [Section.apply, direct, single]
  change Entries.openTable part.label (applyAll part.assignments) entries = _
  exact Entries.openTable_of_fresh (by rwa [Section.label, named]) filled

end MetricCatalog.Toml
