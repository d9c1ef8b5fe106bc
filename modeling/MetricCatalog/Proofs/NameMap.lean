import MetricCatalog.NameMap

/-!
# What a map of names contains

A map is known by its lookups: each view of it (its names, the names that pass a test, whether it
is empty) is told by what is found under which name, and two maps in which the same is found are
equal. The order of the entries does the last step, since it leaves no choice of arrangement.
-/

namespace MetricCatalog.NameMap

variable {α : Type}

theorem find?_eq_some_iff {m : NameMap α} {name : String} {value : α} :
    m.find? name = some value ↔ (name, value) ∈ m.entries := by
  rw [find?, List.lookup_eq_some_iff]
  constructor
  · rintro ⟨before, after, split, -⟩
    rw [split]
    exact List.mem_append_right before List.mem_cons_self
  · intro stored
    obtain ⟨before, after, split⟩ := List.append_of_mem stored
    refine ⟨before, after, split, fun entry earlier => ?_⟩
    have ascending := m.ascending
    rw [split] at ascending
    have below := (List.pairwise_append.mp ascending).2.2 entry earlier _ List.mem_cons_self
    have other : name ≠ entry.1 := by
      rintro rfl
      exact String.lt_irrefl _ below
    simp [other]

theorem mem_names_iff {m : NameMap α} {name : String} :
    name ∈ m.names ↔ (m.find? name).isSome := by
  rw [names, List.mem_map, Option.isSome_iff_exists]
  constructor
  · rintro ⟨⟨key, value⟩, stored, rfl⟩
    exact ⟨value, find?_eq_some_iff.mpr stored⟩
  · rintro ⟨value, found⟩
    exact ⟨(name, value), find?_eq_some_iff.mp found, rfl⟩

theorem mem_namesWhere_iff {m : NameMap α} {test : α → Bool} {name : String} :
    name ∈ m.namesWhere test ↔ ∃ value, m.find? name = some value ∧ test value = true := by
  rw [namesWhere, List.mem_map]
  constructor
  · rintro ⟨⟨key, value⟩, passed, rfl⟩
    obtain ⟨stored, passed⟩ := List.mem_filter.mp passed
    exact ⟨value, find?_eq_some_iff.mpr stored, passed⟩
  · rintro ⟨value, found, passed⟩
    exact ⟨(name, value), List.mem_filter.mpr ⟨find?_eq_some_iff.mp found, passed⟩, rfl⟩

theorem isEmpty_iff {m : NameMap α} : m.isEmpty = true ↔ ∀ name, m.find? name = none := by
  rw [isEmpty, List.isEmpty_iff]
  constructor
  · intro none name
    rw [find?, none]
    rfl
  · intro unknown
    apply List.eq_nil_iff_forall_not_mem.mpr
    rintro ⟨name, value⟩ stored
    have found := find?_eq_some_iff.mpr stored
    rw [unknown name] at found
    cases found

theorem length_alterEntries_le (name : String) (f : Option α → α) (entries : List (String × α)) :
    (alterEntries name f entries).length ≤ entries.length + 1 := by
  induction entries with
  | nil => exact Nat.le_refl 1
  | cons head rest ih =>
    rw [alterEntries]
    split
    · exact Nat.le_succ _
    · split
      · exact Nat.le_refl _
      · exact Nat.succ_le_succ ih

/-- Storing under a name adds at most this name. -/
theorem size_alter_le (m : NameMap α) (name : String) (f : Option α → α) :
    (m.alter name f).size ≤ m.size + 1 :=
  length_alterEntries_le name f m.entries

theorem namesWhere_ascending (m : NameMap α) (test : α → Bool) :
    (m.namesWhere test).Pairwise (· < ·) :=
  List.pairwise_map.mpr (m.ascending.sublist List.filter_sublist)

/-- In ascending order of keys nothing stands twice. -/
theorem nodup_of_ascending {β : Type} (key : β → String) {xs : List β}
    (ascending : xs.Pairwise fun x y => key x < key y) : xs.Nodup :=
  ascending.imp fun {a b} below => fun (equal : a = b) => String.lt_irrefl _ (equal ▸ below)

theorem names_nodup (m : NameMap α) : m.names.Nodup :=
  nodup_of_ascending id m.names_ascending

/-- Lists in ascending order of keys are equal when they have the same members. -/
theorem eq_of_ascending {β : Type} (key : β → String) {xs ys : List β}
    (hx : xs.Pairwise fun x y => key x < key y) (hy : ys.Pairwise fun x y => key x < key y)
    (same : ∀ x, x ∈ xs ↔ x ∈ ys) : xs = ys := by
  refine List.Perm.eq_of_pairwise ?_ hx hy ((List.perm_ext_iff_of_nodup
    (nodup_of_ascending key hx) (nodup_of_ascending key hy)).mpr same)
  intro a b _ _ hab hba
  exact absurd (String.lt_trans hab hba) (String.lt_irrefl _)

theorem names_eq_iff {m n : NameMap α} :
    m.names = n.names ↔ ∀ name, name ∈ m.names ↔ name ∈ n.names := by
  refine ⟨fun same name => by rw [same], fun same => ?_⟩
  exact eq_of_ascending id m.names_ascending n.names_ascending same

theorem namesWhere_eq_iff {m n : NameMap α} {test : α → Bool} :
    m.namesWhere test = n.namesWhere test ↔
      ∀ name, name ∈ m.namesWhere test ↔ name ∈ n.namesWhere test := by
  refine ⟨fun same name => by rw [same], fun same => ?_⟩
  exact eq_of_ascending id (m.namesWhere_ascending test) (n.namesWhere_ascending test) same

theorem ext_find? {m n : NameMap α} (same : ∀ name, m.find? name = n.find? name) : m = n := by
  apply ext_entries
  refine eq_of_ascending Prod.fst m.ascending n.ascending fun (name, value) => ?_
  rw [← find?_eq_some_iff, ← find?_eq_some_iff, same name]

/-- Of values stored one after another under different names all are found again. -/
theorem find?_foldl_insert {pairs : List (String × α)} (distinct : (pairs.map Prod.fst).Nodup)
    (m : NameMap α) (name : String) (value : α) :
    (pairs.foldl (fun m pair => m.insert pair.1 pair.2) m).find? name = some value ↔
      (name, value) ∈ pairs ∨ name ∉ pairs.map Prod.fst ∧ m.find? name = some value := by
  induction pairs generalizing m with
  | nil => simp
  | cons pair pairs ih =>
    obtain ⟨key, stored⟩ := pair
    obtain ⟨fresh, distinct⟩ := List.nodup_cons.mp distinct
    rw [List.foldl_cons, ih distinct, find?_insert]
    by_cases same : name = key
    · subst same
      have later : (name, value) ∉ pairs := fun here => fresh (List.mem_map.mpr ⟨_, here, rfl⟩)
      simp [later, fresh, eq_comm]
    · simp [same]

/-- The entries of a map make it again, whatever the order in which they are stored. -/
theorem foldl_insert_of_perm {pairs : List (String × α)} {m : NameMap α}
    (all : pairs.Perm m.entries) :
    pairs.foldl (fun m pair => m.insert pair.1 pair.2) empty = m := by
  have distinct : (pairs.map Prod.fst).Nodup := (all.map Prod.fst).nodup_iff.mpr m.names_nodup
  refine ext_find? fun name => Option.ext fun value => ?_
  rw [find?_foldl_insert distinct, find?_empty, find?_eq_some_iff, all.mem_iff]
  simp

theorem mem_names_add {s : NameSet} {name added : String} :
    name ∈ NameMap.names (s.add added) ↔ name = added ∨ name ∈ s.names := by
  rw [mem_names_iff, mem_names_iff, NameSet.add, find?_insert]
  by_cases here : name = added
  · simp [here]
  · simp [here]

/-- A set of names is known by its members. -/
theorem ext_names {s t : NameSet} (same : s.names = t.names) : s = t := by
  refine ext_find? fun name => ?_
  have members : (NameMap.find? s name).isSome ↔ (NameMap.find? t name).isSome := by
    rw [← mem_names_iff, ← mem_names_iff, same]
  cases hs : NameMap.find? s name with
  | none =>
    rw [hs] at members
    exact (Option.not_isSome_iff_eq_none.mp (mt members.mpr Bool.false_ne_true)).symm
  | some _ =>
    rw [hs] at members
    obtain ⟨_, ht⟩ := Option.isSome_iff_exists.mp (members.mp rfl)
    exact ht.symm

end MetricCatalog.NameMap
