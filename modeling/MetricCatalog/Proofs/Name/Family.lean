import MetricCatalog.Name.Placement

/-!
# Parents and children among names

A name is a child of another when it goes on with one separator and one more segment. The parent
is then unique and one level higher, and a base level places a name by these facts alone: at
either end of the name the split finds the same parent.
-/

namespace MetricCatalog.Name

/-- A name is its parent, a separator and a segment. The segment may be empty. -/
def IsChild (parent name : String) : Prop :=
  ∃ segment : String, separator ∉ segment.toList ∧
    name = parent ++ String.singleton separator ++ segment

theorem isChild_iff_toList {parent name : String} :
    IsChild parent name ↔
      ∃ segment : List Char, separator ∉ segment ∧
        name.toList = parent.toList ++ separator :: segment := by
  constructor
  · rintro ⟨segment, plain, rfl⟩
    exact ⟨segment.toList, plain, by simp⟩
  · rintro ⟨segment, plain, spelled⟩
    refine ⟨String.ofList segment, by simpa using plain, ?_⟩
    apply String.toList_inj.mp
    simpa using spelled

/-- The name without its trailing segment, where it has more than one. -/
def parent? (name : String) : Option String :=
  (splitLast? name.toList).map fun parts => String.ofList parts.1

theorem parent?_eq_some_iff {parent name : String} :
    parent? name = some parent ↔ IsChild parent name := by
  rw [isChild_iff_toList, parent?, Option.map_eq_some_iff]
  constructor
  · rintro ⟨⟨lead, trail⟩, split, rfl⟩
    obtain ⟨spelled, plain⟩ := splitLast?_eq_some_iff.mp split
    exact ⟨trail, plain, by simpa using spelled⟩
  · rintro ⟨segment, plain, spelled⟩
    exact ⟨(parent.toList, segment), splitLast?_eq_some_iff.mpr ⟨spelled, plain⟩, by simp⟩

instance (parent name : String) : Decidable (IsChild parent name) :=
  decidable_of_iff _ parent?_eq_some_iff

theorem IsChild.parent_unique {p q name : String} (hp : IsChild p name) (hq : IsChild q name) :
    p = q := by
  have hp' := parent?_eq_some_iff.mpr hp
  have hq' := parent?_eq_some_iff.mpr hq
  exact Option.some.inj (hp'.symm.trans hq')

theorem IsChild.depth_eq {parent name : String} (child : IsChild parent name) :
    depth name = depth parent + 1 := by
  obtain ⟨segment, plain, spelled⟩ := isChild_iff_toList.mp child
  rw [depth, depth, spelled, List.count_append, List.count_cons_self,
    List.count_eq_zero_of_not_mem plain]

/-- A name with a separator has a parent. -/
theorem exists_isChild (name : String) (deep : 0 < depth name) :
    ∃ parent, IsChild parent name := by
  cases split : splitLast? name.toList with
  | none =>
    have plain := splitLast?_eq_none_iff.mp split
    rw [depth, List.count_eq_zero_of_not_mem plain] at deep
    omega
  | some parts =>
    refine ⟨String.ofList parts.1, parent?_eq_some_iff.mp ?_⟩
    rw [parent?, split]
    rfl

/-- Where there is but one separator, the first is the last. -/
theorem splitFirst?_eq_splitLast? {name : String} (one : depth name = 1) :
    splitFirst? name.toList = splitLast? name.toList := by
  obtain ⟨parent, child⟩ := exists_isChild name (by omega)
  obtain ⟨segment, plain, spelled⟩ := isChild_iff_toList.mp child
  have shallow : separator ∉ parent.toList := by
    have deeper := child.depth_eq
    apply List.count_eq_zero.mp
    rw [← depth]
    omega
  rw [splitFirst?_eq_some_iff.mpr ⟨spelled, shallow⟩, splitLast?_eq_some_iff.mpr ⟨spelled, plain⟩]

end MetricCatalog.Name

namespace MetricCatalog.BaseLevel

open Name (IsChild exists_isChild parent?_eq_some_iff)

/-- Splitting at the first separator, as is done at base level zero, finds the parent too: there
is but one separator. -/
theorem parent?_eq_parent? (level : BaseLevel) {name : String}
    (next : Name.depth name = level.depth + 1) : level.parent? name = Name.parent? name := by
  rw [BaseLevel.parent?, Name.parent?]
  by_cases root : level.depth = 0
  · rw [if_pos root, Name.splitFirst?_eq_splitLast? (by omega)]
  · rw [if_neg root]

theorem place_eq_base_iff (level : BaseLevel) (name : String) :
    level.place name = .base ↔ Name.depth name = level.depth := by
  rw [BaseLevel.place]
  constructor
  · intro placed
    split at placed
    · assumption
    · split at placed
      · split at placed <;> cases placed
      · cases placed
  · intro same
    rw [if_pos same]

theorem place_eq_next_iff (level : BaseLevel) (parent name : String) :
    level.place name = .next parent ↔ IsChild parent name ∧ Name.depth parent = level.depth := by
  rw [BaseLevel.place]
  constructor
  · intro placed
    split at placed
    · cases placed
    · split at placed
      · next next =>
        rw [level.parent?_eq_parent? next] at placed
        split at placed
        · next found =>
          have child := parent?_eq_some_iff.mp found
          cases placed
          exact ⟨child, by have := child.depth_eq; omega⟩
        · cases placed
      · cases placed
  · rintro ⟨child, same⟩
    have next : Name.depth name = level.depth + 1 := by rw [child.depth_eq, same]
    rw [if_neg (by omega), if_pos next, level.parent?_eq_parent? next,
      parent?_eq_some_iff.mpr child]

/-- Any other name is neither of the base level nor one below it. -/
theorem place_eq_ignored_iff (level : BaseLevel) (name : String) :
    level.place name = .ignored ↔
      Name.depth name ≠ level.depth ∧ Name.depth name ≠ level.depth + 1 := by
  constructor
  · intro placed
    refine ⟨fun same => ?_, fun next => ?_⟩
    · rw [(level.place_eq_base_iff name).mpr same] at placed
      cases placed
    · obtain ⟨parent, child⟩ := exists_isChild name (by omega)
      have same : Name.depth parent = level.depth := by have := child.depth_eq; omega
      rw [(level.place_eq_next_iff parent name).mpr ⟨child, same⟩] at placed
      cases placed
  · rintro ⟨other, deeper⟩
    rw [BaseLevel.place, if_neg other, if_neg deeper]

end MetricCatalog.BaseLevel
