import MetricCatalog.Proofs.Catalog.Attempt

/-!
# Catalogs stay consistent

The set of names that lead on and the tally of counts are kept apart and updated apart. Whatever
steps a session takes, refused or rolled back ones among them, the two fit together, and both hold
base-level names only. The reason is always the same: what a catalog holds is told by some
observations, all of them acceptable, and an observation never undoes this.
-/

namespace MetricCatalog.Catalog

open Observation

/-- What holds of the parts of a catalog among themselves. -/
structure Consistent (c : Catalog) (level : BaseLevel) : Prop where
  level_eq : c.level = level
  tracked_depth : ∀ name, (c.counts? name).isSome → Name.depth name = level.depth
  next_depth : ∀ name ∈ c.nextLevelNames, Name.depth name = level.depth
  next_tracked : ∀ name ∈ c.nextLevelNames, (c.counts? name).isSome
  next_of_children : ∀ name r, c.counts? name = some r → 0 < r.children → name ∈ c.nextLevelNames
  own_le : ∀ name r, c.counts? name = some r → r.own.toNat ≤ 2 ^ 63 - 1
  complete_tracked : ∀ name ∈ c.completeNames, (c.counts? name).isSome
  complete_named : ∀ name ∈ c.completeNames, name ≠ ""
  /-- The empty name is known only as the parent of names that begin with a separator. -/
  unnamed : (c.counts? "").isSome ∨ "" ∈ c.nextLevelNames →
    level.depth = 0 ∧ ∃ r, c.counts? "" = some r ∧ r.own = 0

/-- The catalog is told by acceptable observations. -/
def Explained (level : BaseLevel) (c : Catalog) : Prop :=
  ∃ xs, (∀ o ∈ xs, o.Acceptable) ∧ Reflects c level xs

section Explained

variable {c : Catalog} {level : BaseLevel} {xs : List Observation}

theorem explained_empty (level : BaseLevel) : Explained level (empty level) :=
  ⟨[], by simp, reflects_empty level⟩

theorem Explained.add (h : Explained level c) (o : Observation) :
    Explained level (c.add o.1 o.2).catalog := by
  obtain ⟨xs, ok, reflects⟩ := h
  refine ⟨xs ++ [o].filter Acceptable, fun x here => ?_, reflects.add o⟩
  rcases List.mem_append.mp here with old | new
  · exact ok x old
  · exact of_decide_eq_true (List.mem_filter.mp new).2

theorem Reflects.tracked_of_next (h : Reflects c level xs) {name : String}
    (next : name ∈ c.nextLevelNames) : (c.counts? name).isSome := by
  obtain ⟨same, o, here, child⟩ := (h.next_iff name).mp next
  exact (h.tracked_iff name).mpr ⟨same, o, here, Or.inr child⟩

theorem Reflects.next_of_children (h : Reflects c level xs) {name : String} {r : Record}
    (found : c.counts? name = some r) (some : 0 < r.children) : name ∈ c.nextLevelNames := by
  refine (h.next_iff name).mpr ⟨h.depth_eq found, ?_⟩
  by_contra none
  have zero : childTotal name xs = 0 :=
    childTotal_eq_zero fun o here child => none ⟨o, Multiset.mem_coe.mp here, child⟩
  have children := h.children_of_counts found
  have positive : 0 < r.children.toNat := UInt64.lt_iff_toNat_lt.mp some
  omega

theorem Reflects.unnamed (h : Reflects c level xs) (ok : ∀ o ∈ xs, o.Acceptable)
    (tracked : (c.counts? "").isSome) :
    level.depth = 0 ∧ ∃ r, c.counts? "" = some r ∧ r.own = 0 := by
  obtain ⟨r, found⟩ := Option.isSome_iff_exists.mp tracked
  refine ⟨(h.depth_eq found).symm, r, found, UInt64.toNat_inj.mp ?_⟩
  rw [h.own_of_counts found, lastOwn_eq_zero fun o here => (ok o here).1]
  rfl

theorem Explained.consistent (h : Explained level c) : Consistent c level := by
  obtain ⟨xs, ok, reflects⟩ := h
  have own {name : String} (complete : name ∈ c.completeNames) : ∃ o ∈ xs, o.1 = name :=
    exists_of_lastOwn_pos (Nat.zero_lt_of_lt ((reflects.complete_iff name).mp complete).2)
  refine
    { level_eq := reflects.level_eq
      tracked_depth := fun name tracked => ((reflects.tracked_iff name).mp tracked).1
      next_depth := fun name next => ((reflects.next_iff name).mp next).1
      next_tracked := fun name => reflects.tracked_of_next
      next_of_children := fun name r => reflects.next_of_children
      own_le := fun name r found => ?_
      complete_tracked := fun name complete => ?_
      complete_named := fun name complete => ?_
      unnamed := fun known => ?_ }
  · have small := lastOwn_lt name xs
    rw [reflects.own_of_counts found]
    omega
  · obtain ⟨o, here, same⟩ := own complete
    have depth := ((reflects.complete_iff name).mp complete).1
    exact (reflects.tracked_iff name).mpr ⟨depth, o, here, Or.inl same⟩
  · obtain ⟨o, here, rfl⟩ := own complete
    exact (ok o here).1
  · exact reflects.unnamed ok (known.elim id reflects.tracked_of_next)

end Explained

/-- However a catalog was made and whatever was done to it since, it is consistent at the base
level that was asked for. -/
theorem consistent_after (opening : Opening) (c : Catalog) (made : opening.catalog.1 = .ok c)
    (steps : List Step) : Consistent (Session.after (.start c) steps).current opening.level := by
  have kept : ∀ (d : Catalog) (o : Observation), Explained opening.level d →
      Explained opening.level (d.add o.1 o.2).catalog := fun _ o h => h.add o
  have start : Explained opening.level c := by
    rw [opening.eq_of_catalog made]
    exact observe_keeps kept (explained_empty opening.level) opening.attempts
  exact (Session.after_keeps (s := .start c) kept start start steps).1.consistent

def troubledSteps : List Step :=
  [.addAll [(".x", 3), ("", 1), ("a", 1)], .save, .add "a" 7, .add "a" (-7),
    .feed (.buckets [⟨some "a.b", 2⟩, ⟨none, 1⟩]), .restore, .listing]

/-- A list that breaks off, a refused count, buckets that break off, and all of it rolled back: the
empty name leads on, and has no documents of its own. -/
theorem consistent_after_troubled :
    ∃ c, (Opening.signed 0).catalog.1 = .ok c ∧
      (Session.after (.start c) troubledSteps).current.nextLevelNames = [""] ∧
      ∃ r, (Session.after (.start c) troubledSteps).current.counts? "" = some r ∧ r.own = 0 := by
  have next : (Session.after (.start (empty ⟨0⟩)) troubledSteps).current.nextLevelNames = [""] := by
    decide +kernel
  have consistent := consistent_after (.signed 0) (empty ⟨0⟩) rfl troubledSteps
  exact ⟨empty ⟨0⟩, rfl, next, (consistent.unnamed (Or.inr (by rw [next]; simp))).2⟩

end MetricCatalog.Catalog
