import Mathlib.Algebra.BigOperators.Group.Finset.Piecewise
import MetricCatalog.Proofs.Catalog.Observation

/-!
# Catalogs of adjacent base levels

The same observations taken up at one base level and at the next deeper one tell one story: what
the deeper catalog holds as the names' own counts, the other has summed up under their parents.
The sums agree as long as no index is repeated. A repeated one counts every time as a child, but
only the last time on its own.
-/

namespace MetricCatalog.Catalog

open Observation

/-- The names that a catalog tracks one segment below a name. -/
def trackedBelow (c : Catalog) (parent : String) : Finset String :=
  (c.tally.names.filter fun name => Name.IsChild parent name).toFinset

theorem mem_trackedBelow_iff {c : Catalog} {parent name : String} :
    name ∈ c.trackedBelow parent ↔ (c.counts? name).isSome ∧ Name.IsChild parent name := by
  rw [trackedBelow, List.mem_toFinset, List.mem_filter, NameMap.mem_names_iff, counts?,
    decide_eq_true_iff]

section Sums

variable {xs : List Observation} {parent : String}

/-- The first observation of a name adds its count to nothing. -/
theorem lastOwn_concat_of_fresh {o : Observation} (fresh : ∀ x ∈ xs, x.1 ≠ o.1) (name : String) :
    lastOwn name (xs ++ [o]) = lastOwn name xs + if o.1 = name then o.documents else 0 := by
  rw [lastOwn_concat]
  split
  · next same =>
    subst same
    rw [lastOwn_eq_zero fresh, Nat.zero_add]
  · rfl

/-- Children counted one by one, or name by name. -/
theorem sum_lastOwn (once : (xs.map Prod.fst).Nodup) (names : Finset String)
    (children : ∀ o ∈ xs, o.1 ∈ names ↔ Name.IsChild parent o.1) :
    ∑ name ∈ names, lastOwn name xs = childTotal parent xs := by
  -- From the end: the last observation is the one that decides, and without repetitions it is new.
  induction xs using List.reverseRecOn with
  | nil => simp [lastOwn, childTotal]
  | append_singleton xs o ih =>
    rw [List.map_append, List.nodup_append] at once
    obtain ⟨once, -, apart⟩ := once
    have fresh : ∀ x ∈ xs, x.1 ≠ o.1 := fun x here =>
      apart x.1 (List.mem_map_of_mem here) o.1 (by simp)
    have earlier := ih once fun x here => children x (List.mem_append_left _ here)
    have last := children o (List.mem_append_right _ List.mem_cons_self)
    rw [childTotal_concat, ← earlier, Finset.sum_congr rfl fun name _ =>
      lastOwn_concat_of_fresh fresh name, Finset.sum_add_distrib, Finset.sum_ite_eq]
    simp only [last]

end Sums

section Levels

variable {upper lower : Catalog} {b : Nat} {xs : List Observation}

theorem exists_parent_of_own (above : Reflects upper ⟨b⟩ xs) (below : Reflects lower ⟨b + 1⟩ xs)
    {name : String} {r : Record} (found : lower.counts? name = some r) (some : 0 < r.own) :
    ∃ parent, Name.IsChild parent name ∧ parent ∈ upper.nextLevelNames := by
  have depth : Name.depth name = b + 1 := below.depth_eq found
  have positive : 0 < lastOwn name xs := by
    rw [← below.own_of_counts found]
    exact UInt64.lt_iff_toNat_lt.mp some
  obtain ⟨o, here, rfl⟩ := exists_of_lastOwn_pos positive
  obtain ⟨parent, child⟩ := Name.exists_isChild o.1 (by omega)
  have same : Name.depth parent = b := by have := child.depth_eq; omega
  exact ⟨parent, child, (above.next_iff parent).mpr ⟨same, o, here, child⟩⟩

theorem exists_tracked_child (above : Reflects upper ⟨b⟩ xs) (below : Reflects lower ⟨b + 1⟩ xs)
    {parent : String} (next : parent ∈ upper.nextLevelNames) :
    ∃ name, (lower.counts? name).isSome ∧ Name.IsChild parent name := by
  obtain ⟨same, o, here, child⟩ := (above.next_iff parent).mp next
  have depth : Name.depth o.1 = b + 1 := by rw [child.depth_eq, same]
  exact ⟨o.1, (below.tracked_iff o.1).mpr ⟨depth, o, here, Or.inl rfl⟩, child⟩

theorem children_eq_sum_own (above : Reflects upper ⟨b⟩ xs) (below : Reflects lower ⟨b + 1⟩ xs)
    (once : (xs.map Prod.fst).Nodup) {parent : String} (same : Name.depth parent = b) :
    (upper.countsOrZero parent).children.toNat =
      min (2 ^ 64 - 1)
        (∑ name ∈ lower.trackedBelow parent, (lower.countsOrZero name).own.toNat) := by
  have deeper {name : String} (child : Name.IsChild parent name) : Name.depth name = b + 1 := by
    rw [child.depth_eq, same]
  have own : ∀ name ∈ lower.trackedBelow parent,
      (lower.countsOrZero name).own.toNat = lastOwn name xs := by
    intro name here
    exact below.own_eq name (deeper (mem_trackedBelow_iff.mp here).2)
  have children : ∀ o ∈ xs, o.1 ∈ lower.trackedBelow parent ↔ Name.IsChild parent o.1 := by
    intro o here
    rw [mem_trackedBelow_iff, and_iff_right_iff_imp]
    intro child
    exact (below.tracked_iff o.1).mpr ⟨deeper child, o, here, Or.inl rfl⟩
  rw [Finset.sum_congr rfl own, sum_lastOwn once _ children, above.children_eq parent same,
    Nat.min_comm]
  rfl

end Levels

/-- One list of observations at a base level and at the next: each name with documents of its own
at the deeper level stands below a name that leads on at the other, each name that leads on has a
tracked child, and without repetitions the children's count is the sum of the children's own. -/
theorem adjacent_levels (b : Nat) (xs : List Observation) (ok : ∀ o ∈ xs, o.Acceptable) :
    let upper := (empty ⟨b⟩).observe xs
    let lower := (empty ⟨b + 1⟩).observe xs
    (∀ name r, lower.counts? name = some r → 0 < r.own → separator ∈ name.toList ∧
      ∃ parent, Name.IsChild parent name ∧ parent ∈ upper.nextLevelNames) ∧
    (∀ name ∈ lower.completeNames, separator ∈ name.toList ∧
      ∃ parent, Name.IsChild parent name ∧ parent ∈ upper.nextLevelNames) ∧
    (∀ parent ∈ upper.nextLevelNames,
      ∃ name, (lower.counts? name).isSome ∧ Name.IsChild parent name) ∧
    ((xs.map Prod.fst).Nodup → ∀ parent, Name.depth parent = b →
      (upper.countsOrZero parent).children.toNat =
        min (2 ^ 64 - 1)
          (∑ name ∈ lower.trackedBelow parent, (lower.countsOrZero name).own.toNat)) := by
  intro upper lower
  have above : Reflects upper ⟨b⟩ xs := reflects_observe_acceptable ⟨b⟩ ok
  have below : Reflects lower ⟨b + 1⟩ xs := reflects_observe_acceptable ⟨b + 1⟩ ok
  have counted (name : String) (r : Record) (found : lower.counts? name = some r)
      (some : 0 < r.own) : separator ∈ name.toList ∧
        ∃ parent, Name.IsChild parent name ∧ parent ∈ upper.nextLevelNames := by
    have deep : 0 < Name.depth name := by
      rw [below.depth_eq found]
      exact Nat.succ_pos b
    exact ⟨List.count_pos_iff.mp deep, exists_parent_of_own above below found some⟩
  refine ⟨counted, fun name complete => ?_, fun parent => exists_tracked_child above below,
    fun once parent => children_eq_sum_own above below once⟩
  obtain ⟨r, found, complete⟩ := NameMap.mem_namesWhere_iff.mp complete
  have more := (Record.isComplete_iff r).mp complete
  exact counted name r found (UInt64.lt_iff_toNat_lt.mpr (Nat.zero_lt_of_lt more))

def nestedBuckets : List Observation :=
  [("a.b.c", 1), ("a.b", 2), ("a.d.e", 3), ("a", 5), ("a.f", 4), ("g.h", 0)]

/-- `a.d` is tracked below `a` without a count of its own, and adds nothing. -/
theorem adjacent_levels_nested :
    ((∀ o ∈ nestedBuckets, o.Acceptable) ∧ (nestedBuckets.map Prod.fst).Nodup) ∧
      (((empty ⟨1⟩).observe nestedBuckets).trackedBelow "a" = {"a.b", "a.d", "a.f"}) ∧
      (((empty ⟨0⟩).observe nestedBuckets).countsOrZero "a").children.toNat = 6 := by
  have ok : ∀ o ∈ nestedBuckets, o.Acceptable := by decide
  have once : (nestedBuckets.map Prod.fst).Nodup := by decide
  have below : ((empty ⟨1⟩).observe nestedBuckets).trackedBelow "a" = {"a.b", "a.d", "a.f"} := by
    decide +kernel
  refine ⟨⟨ok, once⟩, below, ?_⟩
  rw [(adjacent_levels 0 nestedBuckets ok).2.2.2 once "a" (by decide), below]
  decide +kernel

end MetricCatalog.Catalog
