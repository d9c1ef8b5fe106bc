import MetricCatalog.Proofs.Name.Family

/-!
# Placing a name is taking it apart

A base level counts separators and cuts a name at one of its ends. What it finds can be said
without counting forwards or backwards: a name is one below the level if it is put together from a
name of the level, a separator and a segment. There is at most one way to take it apart like this,
so that the cut never fails and may be made at either end.
-/

namespace MetricCatalog.BaseLevel

open Name (IsChild)

/-- A name one below the level, taken apart. Both parts may be empty. -/
structure Decomposes (level : BaseLevel) (name parent segment : String) : Prop where
  spelled : name = parent ++ String.singleton separator ++ segment
  plain : separator ∉ segment.toList
  depth_eq : Name.depth parent = level.depth

namespace Decomposes

variable {level : BaseLevel} {name parent segment p q s t : String}

theorem isChild (parts : level.Decomposes name parent segment) : IsChild parent name :=
  ⟨segment, parts.plain, parts.spelled⟩

theorem depth_succ (parts : level.Decomposes name parent segment) :
    Name.depth name = level.depth + 1 := by
  have deeper := parts.isChild.depth_eq
  have same := parts.depth_eq
  omega

theorem unique (left : level.Decomposes name p s) (right : level.Decomposes name q t) :
    p = q ∧ s = t := by
  have parents : p = q := left.isChild.parent_unique right.isChild
  subst parents
  have spelled := left.spelled.symm.trans right.spelled
  exact ⟨rfl, (String.append_right_inj _).mp spelled⟩

end Decomposes

variable (level : BaseLevel) (name : String)

theorem place_eq_next_iff_decomposes {parent : String} :
    level.place name = .next parent ↔ ∃ segment, level.Decomposes name parent segment := by
  rw [level.place_eq_next_iff]
  constructor
  · rintro ⟨⟨segment, plain, spelled⟩, same⟩
    exact ⟨segment, spelled, plain, same⟩
  · rintro ⟨segment, parts⟩
    exact ⟨parts.isChild, parts.depth_eq⟩

/-- One separator more than the level has: the cut succeeds, the same at the name's other end. -/
theorem exists_parent_of_depth (next : Name.depth name = level.depth + 1) :
    ∃ parent, level.parent? name = some parent ∧ Name.parent? name = some parent ∧
      level.place name = .next parent := by
  obtain ⟨parent, child⟩ := Name.exists_isChild name (by omega)
  have found : Name.parent? name = some parent := Name.parent?_eq_some_iff.mpr child
  have cut : level.parent? name = some parent := (level.parent?_eq_parent? next).trans found
  have same : Name.depth parent = level.depth := by
    have deeper := child.depth_eq
    omega
  exact ⟨parent, cut, found, (level.place_eq_next_iff parent name).mpr ⟨child, same⟩⟩

theorem exists_place_eq_next_iff :
    (∃ parent, level.place name = .next parent) ↔ Name.depth name = level.depth + 1 := by
  constructor
  · rintro ⟨parent, placed⟩
    obtain ⟨segment, parts⟩ := (level.place_eq_next_iff_decomposes name).mp placed
    exact parts.depth_succ
  · intro next
    obtain ⟨parent, -, -, placed⟩ := level.exists_parent_of_depth name next
    exact ⟨parent, placed⟩

/-- Only a name one below the level can be taken apart. -/
theorem exists_decomposes_iff :
    (∃ parent segment, level.Decomposes name parent segment) ↔
      Name.depth name = level.depth + 1 := by
  simp only [← level.place_eq_next_iff_decomposes name]
  exact level.exists_place_eq_next_iff name

theorem place_eq_base_iff_level : level.place name = .base ↔ level = ⟨Name.depth name⟩ := by
  apply (level.place_eq_base_iff name).trans
  obtain ⟨depth⟩ := level
  simp [eq_comm]

/-- Placement is decomposition at the level's depth. A name has at most one, and exactly one if it
has one separator more than the level; the cut finds it wherever it is made. A parent that is
reported is itself a base name. Each name is a base name at one level, and below a base name only at
the level above that one. -/
theorem place_eq_iff_decomposes :
    (∀ parent, level.place name = .next parent ↔
      ∃ segment, level.Decomposes name parent segment) ∧
    (∀ p q s t, level.Decomposes name p s → level.Decomposes name q t → p = q ∧ s = t) ∧
    (level.place name = .base ↔ Name.depth name = level.depth) ∧
    (level.place name = .ignored ↔
      Name.depth name ≠ level.depth ∧ ¬ ∃ parent segment, level.Decomposes name parent segment) ∧
    (Name.depth name = level.depth + 1 → ∃ parent,
      level.parent? name = some parent ∧ Name.parent? name = some parent ∧
        level.place name = .next parent) ∧
    (∀ parent, level.place name = .next parent → level.place parent = .base) ∧
    (∀ parent segment, Name.depth parent = level.depth → separator ∉ segment.toList →
      level.place (parent ++ String.singleton separator ++ segment) = .next parent) ∧
    (∀ other : BaseLevel, other.place name = .base ↔ other = ⟨Name.depth name⟩) ∧
    ∀ other : BaseLevel,
      (∃ parent, other.place name = .next parent) ↔ Name.depth name = other.depth + 1 := by
  refine ⟨fun parent => level.place_eq_next_iff_decomposes name,
    fun p q s t left right => left.unique right, level.place_eq_base_iff name, ?_,
    level.exists_parent_of_depth name, fun parent placed => ?_, fun parent segment same plain => ?_,
    fun other => other.place_eq_base_iff_level name,
    fun other => other.exists_place_eq_next_iff name⟩
  · rw [level.place_eq_ignored_iff, level.exists_decomposes_iff]
  · have same := ((level.place_eq_next_iff parent name).mp placed).2
    exact (level.place_eq_base_iff parent).mpr same
  · apply (level.place_eq_next_iff_decomposes _).mpr
    exact ⟨segment, rfl, plain, same⟩

/-- Empty segments at both ends, and a parent that begins with a separator. -/
theorem place_eq_iff_decomposes_empty :
    (⟨2⟩ : BaseLevel).Decomposes ".é.." ".é." "" ∧
      (⟨2⟩ : BaseLevel).place ".é.." = .next ".é." ∧ (⟨2⟩ : BaseLevel).place ".é." = .base := by
  have parts : (⟨2⟩ : BaseLevel).Decomposes ".é.." ".é." "" := ⟨by decide, by decide, by decide⟩
  obtain ⟨next, unique, -, -, cut, reported, -⟩ := place_eq_iff_decomposes ⟨2⟩ ".é.."
  obtain ⟨parent, -, -, placed⟩ := cut parts.depth_succ
  obtain ⟨segment, others⟩ := (next parent).mp placed
  obtain ⟨rfl, -⟩ := unique _ _ _ _ parts others
  exact ⟨parts, placed, reported _ placed⟩

end MetricCatalog.BaseLevel
