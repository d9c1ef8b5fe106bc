/-!
# Maps keyed by names

A map from names to values, kept as a list in strictly ascending order of names, so that equal
maps have equal lists and a listing of the names is sorted by construction. Names are ordered by
their code points.
-/

namespace MetricCatalog

/-- A finite map from names to values. -/
structure NameMap (α : Type) where
  entries : List (String × α)
  ascending : entries.Pairwise fun x y => x.1 < y.1

namespace NameMap

variable {α : Type}

/-- The map without entries. -/
def empty : NameMap α := ⟨[], .nil⟩

instance : Inhabited (NameMap α) := ⟨empty⟩

/-- The value stored under a name. -/
def find? (m : NameMap α) (name : String) : Option α :=
  m.entries.lookup name

/-- The names, in ascending order. -/
def names (m : NameMap α) : List String :=
  m.entries.map Prod.fst

/-- The number of names. -/
def size (m : NameMap α) : Nat :=
  m.entries.length

def isEmpty (m : NameMap α) : Bool :=
  m.entries.isEmpty

/-- The names whose value passes a test, in ascending order. -/
def namesWhere (m : NameMap α) (test : α → Bool) : List String :=
  (m.entries.filter fun entry => test entry.2).map Prod.fst

/-- Stores under a name what `f` makes of its present value; a new name goes to its place in the
order. -/
def alterEntries (name : String) (f : Option α → α) : List (String × α) → List (String × α)
  | [] => [(name, f none)]
  | (other, value) :: rest =>
    if name = other then (name, f (some value)) :: rest
    else if name < other then (name, f none) :: (other, value) :: rest
    else (other, value) :: alterEntries name f rest

theorem mem_alterEntries {name : String} {f : Option α → α} {entries : List (String × α)}
    {entry : String × α} (h : entry ∈ alterEntries name f entries) :
    entry.1 = name ∨ entry ∈ entries := by
  induction entries with
  | nil => simp_all [alterEntries]
  | cons head rest ih => simp only [alterEntries] at h; grind

theorem alterEntries_ascending (name : String) (f : Option α → α) (entries : List (String × α))
    (h : entries.Pairwise fun x y => x.1 < y.1) :
    (alterEntries name f entries).Pairwise fun x y => x.1 < y.1 := by
  induction entries with
  | nil => simp [alterEntries]
  | cons head rest ih =>
    obtain ⟨hhead, hrest⟩ := List.pairwise_cons.1 h
    unfold alterEntries
    split
    · next heq => exact List.pairwise_cons.2 ⟨fun y hy => heq ▸ hhead y hy, hrest⟩
    · next hne =>
      split
      · next hlt =>
        refine List.pairwise_cons.2 ⟨fun y hy => ?_, h⟩
        rcases List.mem_cons.1 hy with rfl | hy
        · exact hlt
        · exact String.lt_trans hlt (hhead y hy)
      · next hnlt =>
        refine List.pairwise_cons.2 ⟨fun y hy => ?_, ih hrest⟩
        rcases mem_alterEntries hy with hname | hy
        · exact hname ▸ Std.lt_of_le_of_ne (String.not_lt.1 hnlt) (Ne.symm hne)
        · exact hhead y hy

/-- Replaces the value under a name, or adds the name. -/
def alter (m : NameMap α) (name : String) (f : Option α → α) : NameMap α :=
  ⟨alterEntries name f m.entries, alterEntries_ascending name f m.entries m.ascending⟩

/-- Stores a value under a name, in place of the present one if there is one. -/
def insert (m : NameMap α) (name : String) (value : α) : NameMap α :=
  m.alter name fun _ => value

theorem lookup_cons_ite (name key : String) (value : α) (rest : List (String × α)) :
    ((key, value) :: rest).lookup name = if name = key then some value else rest.lookup name := by
  by_cases h : name = key
  · simp [h]
  · have hb : (name == key) = false := by simp [h]
    simp [List.lookup_cons, hb, h]

theorem lookup_eq_none_of_lt {name key : String} {rest : List (String × α)}
    (hname : name < key) (hrest : ∀ entry ∈ rest, key < entry.1) : rest.lookup name = none := by
  rw [List.lookup_eq_none_iff]
  intro entry hentry
  have hlt := String.lt_trans hname (hrest entry hentry)
  have hne : name ≠ entry.1 := by
    rintro rfl
    exact String.lt_irrefl _ hlt
  simp [hne]

theorem lookup_alterEntries (name other : String) (f : Option α → α)
    (entries : List (String × α)) (h : entries.Pairwise fun x y => x.1 < y.1) :
    (alterEntries name f entries).lookup other =
      if other = name then some (f (entries.lookup name)) else entries.lookup other := by
  induction entries with
  | nil => simp [alterEntries, lookup_cons_ite]
  | cons head rest ih =>
    obtain ⟨key, value⟩ := head
    obtain ⟨hhead, hrest⟩ := List.pairwise_cons.1 h
    unfold alterEntries
    split
    · next heq => subst heq; by_cases hn : other = name <;> simp [lookup_cons_ite, hn]
    · next hne =>
      split
      · next hlt =>
        by_cases hn : other = name
        · simp [lookup_cons_ite, hn, hne, lookup_eq_none_of_lt hlt hhead]
        · simp [lookup_cons_ite, hn]
      · by_cases hk : other = key
        · simp [hk, Ne.symm hne]
        · simp [lookup_cons_ite, hk, hne, ih hrest]

theorem find?_alter (m : NameMap α) (name other : String) (f : Option α → α) :
    (m.alter name f).find? other =
      if other = name then some (f (m.find? name)) else m.find? other :=
  lookup_alterEntries name other f m.entries m.ascending

theorem find?_insert (m : NameMap α) (name other : String) (value : α) :
    (m.insert name value).find? other = if other = name then some value else m.find? other := by
  simp [insert, find?_alter]

@[simp]
theorem find?_empty (name : String) : (empty : NameMap α).find? name = none := rfl

theorem names_ascending (m : NameMap α) : m.names.Pairwise (· < ·) :=
  List.pairwise_map.2 m.ascending

/-- Two maps with the same entries are equal: the order is no further choice. -/
theorem ext_entries {m n : NameMap α} (h : m.entries = n.entries) : m = n := by
  cases m; cases n; simp_all

end NameMap

/-- A finite set of names. -/
abbrev NameSet := NameMap Unit

namespace NameSet

/-- The set with a name added. -/
def add (s : NameSet) (name : String) : NameSet :=
  NameMap.insert s name ()

def contains (s : NameSet) (name : String) : Bool :=
  (NameMap.find? s name).isSome

end NameSet

end MetricCatalog
