import MetricCatalog.Proofs.Catalog.Order
import MetricCatalog.Proofs.Mixture

/-!
# Lost observations

A catalog that missed some observations is compared with the one that took them all. What was
missed at other depths than the base level can only have lessened the sums over the children: fewer
names lead on, and more of them seem complete. What was missed at the base level itself can only
have lessened the names' own counts, where each name has but one, so that fewer seem complete.
-/

namespace MetricCatalog.Catalog

open Observation

section Counts

variable {m : Mixture Observation} {name : String}

theorem childTotal_whole (m : Mixture Observation) (name : String) :
    childTotal name m.whole = childTotal name m.kept + childTotal name m.extras := by
  rw [Multiset.coe_eq_coe.mpr m.perm_whole, ← Multiset.coe_add, childTotal_add]

theorem childTotal_kept_le (m : Mixture Observation) (name : String) :
    childTotal name m.kept ≤ childTotal name m.whole := by
  have sum := childTotal_whole m name
  omega

/-- Without children, or with children that report nothing, nothing is missing from the sum. -/
theorem childTotal_eq_of_lost (lost : ∀ o ∈ m.extras, Name.IsChild name o.1 → o.documents = 0) :
    childTotal name m.kept = childTotal name m.whole := by
  have zero : childTotal name m.extras = 0 := by
    apply Multiset.sum_eq_zero
    intro count here
    obtain ⟨o, child, rfl⟩ := Multiset.mem_map.mp here
    obtain ⟨here, child⟩ := Multiset.mem_filter.mp child
    exact lost o (Multiset.mem_coe.mp here) child
  have sum := childTotal_whole m name
  omega

theorem lastOwn_eq_of_lost (lost : ∀ o ∈ m.extras, o.1 ≠ name) :
    lastOwn name m.kept = lastOwn name m.whole := by
  have none : ∀ o ∈ m.extras, ¬ decide (o.1 = name) = true := by simpa using lost
  rw [lastOwn, lastOwn, m.filter_whole none]

/-- Where all reports on a name are one and the same, those that are left end with it. -/
theorem lastOwn_eq_of_once (seen : 0 < lastOwn name m.kept)
    (once : ∀ o ∈ m.whole, ∀ p ∈ m.whole, o.1 = name → p.1 = name → o = p) :
    lastOwn name m.kept = lastOwn name m.whole := by
  obtain ⟨o, here, same⟩ := exists_of_lastOwn_pos seen
  obtain ⟨p, hereP, sameP, lastP⟩ := exists_lastOwn_eq ⟨o, here, same⟩
  have wholeP := m.kept_sublist.subset hereP
  obtain ⟨q, hereQ, sameQ, lastQ⟩ := exists_lastOwn_eq ⟨p, wholeP, sameP⟩
  have equal : p = q := once p wholeP q hereQ sameP sameQ
  rw [lastP, lastQ, equal]

end Counts

section AnyLoss

variable {level : BaseLevel} {m : Mixture Observation} {full lossy : Catalog}
variable (all : Reflects full level m.whole) (some : Reflects lossy level m.kept)

include all some

theorem nextLevelNames_subset : lossy.nextLevelNames ⊆ full.nextLevelNames := by
  intro name next
  obtain ⟨same, o, here, child⟩ := (some.next_iff name).mp next
  exact (all.next_iff name).mpr ⟨same, o, m.kept_sublist.subset here, child⟩

theorem children_le (name : String) :
    (lossy.countsOrZero name).children ≤ (full.countsOrZero name).children := by
  apply UInt64.le_iff_toNat_le.mpr
  by_cases same : Name.depth name = level.depth
  · have sum := childTotal_kept_le m name
    have before := all.children_eq name same
    have after := some.children_eq name same
    omega
  · rw [all.countsOrZero_eq_zero same, some.countsOrZero_eq_zero same]

end AnyLoss

section LostChildren

variable {level : BaseLevel} {m : Mixture Observation} {full lossy : Catalog}
variable (all : Reflects full level m.whole) (some : Reflects lossy level m.kept)
variable (lost : ∀ o ∈ m.extras, Name.depth o.1 ≠ level.depth)

include lost in
theorem lastOwn_kept {name : String} (same : Name.depth name = level.depth) :
    lastOwn name m.kept = lastOwn name m.whole := by
  apply lastOwn_eq_of_lost
  rintro o here rfl
  exact lost o here same

include all some lost

theorem own_eq_of_lost (name : String) :
    (lossy.countsOrZero name).own = (full.countsOrZero name).own := by
  apply UInt64.toNat_inj.mp
  by_cases same : Name.depth name = level.depth
  · rw [all.own_eq name same, some.own_eq name same, lastOwn_kept lost same]
  · rw [all.countsOrZero_eq_zero same, some.countsOrZero_eq_zero same]

theorem completeNames_subset_lossy : full.completeNames ⊆ lossy.completeNames := by
  intro name complete
  obtain ⟨same, more⟩ := (all.complete_iff name).mp complete
  have sum := childTotal_kept_le m name
  have own := lastOwn_kept lost same
  exact (some.complete_iff name).mpr ⟨same, by omega⟩

theorem completeNames_eq_of_nothing
    (nothing : ∀ o ∈ m.extras, o.2 = 0 ∨ Name.depth o.1 ≠ level.depth + 1) :
    lossy.completeNames = full.completeNames := by
  have subset := completeNames_subset_lossy all some lost
  refine completeNames_eq_iff.mpr fun name => ⟨fun seeming => ?_, fun complete => subset complete⟩
  obtain ⟨same, more⟩ := (some.complete_iff name).mp seeming
  have sum : childTotal name m.kept = childTotal name m.whole := by
    apply childTotal_eq_of_lost
    intro o here child
    rcases nothing o here with zero | other
    · rw [documents, zero]
      rfl
    · have deeper := child.depth_eq
      omega
  have own := lastOwn_kept lost same
  exact (all.complete_iff name).mpr ⟨same, by omega⟩

end LostChildren

section LostNames

variable {level : BaseLevel} {m : Mixture Observation} {full lossy : Catalog}
variable (all : Reflects full level m.whole) (some : Reflects lossy level m.kept)
variable (lost : ∀ o ∈ m.extras, Name.depth o.1 = level.depth)

include lost in
theorem not_isChild_of_lost {name : String} (same : Name.depth name = level.depth) :
    ∀ o ∈ m.extras, ¬ Name.IsChild name o.1 := by
  intro o here child
  have deeper := child.depth_eq
  have base := lost o here
  omega

include lost in
theorem childTotal_kept {name : String} (same : Name.depth name = level.depth) :
    childTotal name m.kept = childTotal name m.whole := by
  apply childTotal_eq_of_lost
  intro o here child
  exact absurd child (not_isChild_of_lost lost same o here)

include all some lost

theorem nextLevelNames_eq_of_lost : lossy.nextLevelNames = full.nextLevelNames := by
  have subset := nextLevelNames_subset all some
  refine nextLevelNames_eq_iff.mpr fun name => ⟨fun next => subset next, fun next => ?_⟩
  obtain ⟨same, o, here, child⟩ := (all.next_iff name).mp next
  rcases List.mem_append.mp (m.perm_whole.mem_iff.mp here) with kept | extra
  · exact (some.next_iff name).mpr ⟨same, o, kept, child⟩
  · exact absurd child (not_isChild_of_lost lost same o extra)

theorem children_eq_of_lost (name : String) :
    (lossy.countsOrZero name).children = (full.countsOrZero name).children := by
  apply UInt64.toNat_inj.mp
  by_cases same : Name.depth name = level.depth
  · rw [all.children_eq name same, some.children_eq name same, childTotal_kept lost same]
  · rw [all.countsOrZero_eq_zero same, some.countsOrZero_eq_zero same]

theorem completeNames_subset_full
    (once : ((m.whole.filter fun o => Name.depth o.1 = level.depth).map Prod.fst).Nodup) :
    lossy.completeNames ⊆ full.completeNames := by
  intro name seeming
  obtain ⟨same, more⟩ := (some.complete_iff name).mp seeming
  have own : lastOwn name m.kept = lastOwn name m.whole := by
    apply lastOwn_eq_of_once (Nat.zero_lt_of_lt more)
    rintro o hereO p hereP rfl equal
    apply List.inj_on_of_nodup_map once
    · exact List.mem_filter.mpr ⟨hereO, decide_eq_true same⟩
    · exact List.mem_filter.mpr ⟨hereP, decide_eq_true (equal ▸ same)⟩
    · exact equal.symm
  have sum := childTotal_kept lost same
  exact (all.complete_iff name).mpr ⟨same, by omega⟩

end LostNames

/-- What a catalog makes of observations of which some were lost, compared with all of them. If none
was lost of the base names themselves, the sums and the names that lead on can only have become
less, the own counts are the same, and no complete name is missed; if moreover nothing was lost
that counts, no name is taken for complete that is not. If only such of the base names were lost,
of which each has one, the children are told as before and no name is taken for complete that is
not. -/
theorem lost_observations (level : BaseLevel) (m : Mixture Observation)
    (ok : ∀ o ∈ m.whole, o.Acceptable) :
    let full := (empty level).observe m.whole
    let lossy := (empty level).observe m.kept
    ((∀ o ∈ m.extras, Name.depth o.1 ≠ level.depth) →
      lossy.nextLevelNames ⊆ full.nextLevelNames ∧
      (∀ name, (lossy.countsOrZero name).children ≤ (full.countsOrZero name).children) ∧
      (∀ name, (lossy.countsOrZero name).own = (full.countsOrZero name).own) ∧
      full.completeNames ⊆ lossy.completeNames ∧
      ((∀ o ∈ m.extras, o.2 = 0 ∨ Name.depth o.1 ≠ level.depth + 1) →
        lossy.completeNames = full.completeNames)) ∧
    ((∀ o ∈ m.extras, Name.depth o.1 = level.depth) →
      lossy.nextLevelNames = full.nextLevelNames ∧
      (∀ name, (lossy.countsOrZero name).children = (full.countsOrZero name).children) ∧
      (((m.whole.filter fun o => Name.depth o.1 = level.depth).map Prod.fst).Nodup →
        lossy.completeNames ⊆ full.completeNames)) := by
  intro full lossy
  have all : Reflects full level m.whole := reflects_observe_acceptable level ok
  have some : Reflects lossy level m.kept :=
    reflects_observe_acceptable level fun o here => ok o (m.kept_sublist.subset here)
  constructor
  · intro lost
    exact ⟨nextLevelNames_subset all some, children_le all some, own_eq_of_lost all some lost,
      completeNames_subset_lossy all some lost, completeNames_eq_of_nothing all some lost⟩
  · intro lost
    exact ⟨nextLevelNames_eq_of_lost all some lost, children_eq_of_lost all some lost,
      completeNames_subset_full all some lost⟩

/-- Children of `a` and `d` may be missing, and a name too deep for both. -/
def childrenLost : Mixture Observation :=
  [.kept ("a", 4), .extra ("a.b", 3), .kept ("a.c", 1), .extra ("d.e", 0), .kept ("d", 1),
    .extra ("a.b.c", 9), .kept ("a", 4)]

/-- The name `d` itself may be missing. -/
def nameLost : Mixture Observation :=
  [.kept ("d.e", 1), .extra ("d", 2), .kept ("a", 4), .kept ("a.b", 3)]

/-- With its children `a` is not complete, and without them it seems to be; without a report of its
own `d` is not complete either. -/
theorem lost_observations_both :
    ((∀ o ∈ childrenLost.whole, o.Acceptable) ∧
      (∀ o ∈ childrenLost.extras, Name.depth o.1 ≠ (⟨0⟩ : BaseLevel).depth) ∧
      ((empty ⟨0⟩).observe childrenLost.whole).completeNames = ["d"] ∧
      ((empty ⟨0⟩).observe childrenLost.kept).completeNames = ["a", "d"] ∧
      ((empty ⟨0⟩).observe childrenLost.whole).completeNames ⊆
        ((empty ⟨0⟩).observe childrenLost.kept).completeNames) ∧
    (∀ o ∈ nameLost.whole, o.Acceptable) ∧
      (∀ o ∈ nameLost.extras, Name.depth o.1 = (⟨0⟩ : BaseLevel).depth) ∧
      ((nameLost.whole.filter fun o => Name.depth o.1 = (⟨0⟩ : BaseLevel).depth).map
        Prod.fst).Nodup ∧
      ((empty ⟨0⟩).observe nameLost.whole).completeNames = ["a", "d"] ∧
      ((empty ⟨0⟩).observe nameLost.kept).completeNames = ["a"] ∧
      ((empty ⟨0⟩).observe nameLost.kept).completeNames ⊆
        ((empty ⟨0⟩).observe nameLost.whole).completeNames := by
  constructor
  · have ok : ∀ o ∈ childrenLost.whole, o.Acceptable := by decide
    have lost : ∀ o ∈ childrenLost.extras, Name.depth o.1 ≠ (⟨0⟩ : BaseLevel).depth := by decide
    obtain ⟨-, -, -, complete, -⟩ := (lost_observations ⟨0⟩ childrenLost ok).1 lost
    exact ⟨ok, lost, by decide +kernel, by decide +kernel, complete⟩
  · have ok : ∀ o ∈ nameLost.whole, o.Acceptable := by decide
    have lost : ∀ o ∈ nameLost.extras, Name.depth o.1 = (⟨0⟩ : BaseLevel).depth := by decide
    have once : ((nameLost.whole.filter fun o => Name.depth o.1 = (⟨0⟩ : BaseLevel).depth).map
        Prod.fst).Nodup := by decide
    obtain ⟨-, -, complete⟩ := (lost_observations ⟨0⟩ nameLost ok).2 lost
    exact ⟨ok, lost, once, by decide +kernel, by decide +kernel, complete once⟩

end MetricCatalog.Catalog
