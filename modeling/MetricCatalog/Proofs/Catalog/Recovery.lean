import Mathlib.Algebra.BigOperators.Group.Finset.Basic
import MetricCatalog.Proofs.Catalog.Order
import MetricCatalog.Proofs.Name.Path

/-!
# Recovering the names behind an aggregation

A true aggregation of a set of names has one observation for each path that leads to one of them,
its count the number of names it leads to. A catalog fed with it, in any order and among terms
without a separator when the base level is deeper, recovers the set: each name is counted at
exactly one child of every path above it, so a path's own count exceeds the sum over its children
by one if it is a name itself, and not at all otherwise.
-/

namespace MetricCatalog.Catalog

open Observation

/-- The names that a path leads to. -/
def following (names : Finset Path) (p : Path) : Finset Path := names.filter fun q => p.Leads q

/-- One observation for each path that leads to a name, counting the names. -/
def aggregation (names : Finset Path) : Multiset Observation :=
  (names.biUnion Path.leading).val.map fun p => (p.name, Int64.ofNat (following names p).card)

/-- The paths one segment below a path that lead to a name. -/
def childPaths (names : Finset Path) (p : Path) : Finset Path :=
  (names.biUnion Path.leading).filter fun q => Name.IsChild p.name q.name

section Counting

variable {names : Finset Path}

theorem mem_following {p q : Path} : q ∈ following names p ↔ q ∈ names ∧ p.Leads q :=
  Finset.mem_filter

theorem mem_aggregation_iff {o : Observation} :
    o ∈ aggregation names ↔
      ∃ p : Path, (∃ q ∈ names, p.Leads q) ∧
        o = (p.name, Int64.ofNat (following names p).card) := by
  rw [aggregation, Multiset.mem_map]
  constructor
  · rintro ⟨p, leading, rfl⟩
    obtain ⟨q, here, leads⟩ := Finset.mem_biUnion.mp leading
    exact ⟨p, ⟨q, here, Path.mem_leading.mp leads⟩, rfl⟩
  · rintro ⟨p, ⟨q, here, leads⟩, rfl⟩
    exact ⟨p, Finset.mem_biUnion.mpr ⟨q, here, Path.mem_leading.mpr leads⟩, rfl⟩

theorem card_following_lt (few : names.card < 2 ^ 63) (p : Path) :
    (following names p).card < 2 ^ 63 :=
  Nat.lt_of_le_of_lt (Finset.card_filter_le ..) few

theorem documents_ofNat (few : names.card < 2 ^ 63) (name : String) (p : Path) :
    documents (name, Int64.ofNat (following names p).card) = (following names p).card :=
  Int64.toNatClampNeg_ofNat_of_lt (card_following_lt few p)

theorem acceptable_of_mem_aggregation (few : names.card < 2 ^ 63) {o : Observation}
    (here : o ∈ aggregation names) : o.Acceptable := by
  obtain ⟨p, -, rfl⟩ := mem_aggregation_iff.mp here
  exact ⟨p.name_ne_empty, Int64.zero_le_ofNat_of_lt (card_following_lt few p)⟩

/-- A name is counted at one child of each path strictly above it. -/
theorem childTotal_aggregation (few : names.card < 2 ^ 63) (p : Path) :
    childTotal p.name (aggregation names) = ((following names p).filter fun q => p ≠ q).card := by
  have sum : childTotal p.name (aggregation names) =
      ∑ q ∈ childPaths names p, (following names q).card := by
    rw [childTotal, aggregation, Multiset.filter_map, Multiset.map_map]
    refine congrArg Multiset.sum (Multiset.map_congr rfl fun q _ => ?_)
    exact documents_ofNat few q.name q
  have child : ∀ m ∈ (following names p).filter fun q => p ≠ q,
      m.first p.segments.length ∈ childPaths names p := by
    intro m here
    obtain ⟨leads, other⟩ := Finset.mem_filter.mp here
    obtain ⟨named, leads⟩ := mem_following.mp leads
    have passed := Path.mem_leading.mpr (m.first_leads p.segments.length)
    exact Finset.mem_filter.mpr
      ⟨Finset.mem_biUnion.mpr ⟨m, named, passed⟩, leads.isChild_first other⟩
  rw [sum, Finset.card_eq_sum_card_fiberwise child]
  refine Finset.sum_congr rfl fun q here => congrArg Finset.card (Finset.ext fun m => ?_)
  have above := (Finset.mem_filter.mp here).2
  rw [Finset.mem_filter, Finset.mem_filter, mem_following, mem_following]
  constructor
  · rintro ⟨named, leads⟩
    obtain ⟨higher, other, first⟩ := Path.Leads.of_isChild above leads
    exact ⟨⟨⟨named, higher⟩, other⟩, first⟩
  · rintro ⟨⟨⟨named, -⟩, -⟩, rfl⟩
    exact ⟨named, m.first_leads _⟩

/-- The excess of the own count over the children's sum tells whether the path is a name. -/
theorem card_following (p : Path) :
    (following names p).card =
      ((following names p).filter fun q => p ≠ q).card + if p ∈ names then 1 else 0 := by
  have itself : ((following names p).filter fun q => ¬ p ≠ q).card =
      if p ∈ names then 1 else 0 := by
    simp only [not_not, Finset.filter_eq, mem_following, Path.Leads.refl, and_true]
    split
    · exact Finset.card_singleton p
    · rfl
  rw [← itself, Finset.card_filter_add_card_filter_not]

end Counting

section Orders

variable {names : Finset Path} {bare : Multiset Observation} {xs : List Observation}

theorem mem_order_iff (order : ↑xs = aggregation names + bare) {o : Observation} :
    o ∈ xs ↔ o ∈ aggregation names ∨ o ∈ bare := by
  rw [← Multiset.mem_add, ← order, Multiset.mem_coe]

theorem lastOwn_path (few : names.card < 2 ^ 63) (order : ↑xs = aggregation names + bare)
    {p : Path} (apart : ∀ o ∈ bare, o.1 ≠ p.name) (leads : ∃ q ∈ names, p.Leads q) :
    lastOwn p.name xs = (following names p).card := by
  have counted := (mem_order_iff order).mpr (Or.inl (mem_aggregation_iff.mpr ⟨p, leads, rfl⟩))
  obtain ⟨o, here, same, value⟩ := exists_lastOwn_eq ⟨_, counted, rfl⟩
  rcases (mem_order_iff order).mp here with told | added
  · obtain ⟨q, -, rfl⟩ := mem_aggregation_iff.mp told
    rw [value, Path.name_inj same, documents_ofNat few]
  · exact absurd same (apart o added)

theorem childTotal_path (few : names.card < 2 ^ 63) (order : ↑xs = aggregation names + bare)
    (shallow : ∀ o ∈ bare, Name.depth o.1 = 0) (p : Path) :
    childTotal p.name xs = ((following names p).filter fun q => p ≠ q).card := by
  have none : childTotal p.name bare = 0 := by
    refine childTotal_eq_zero fun o here child => ?_
    have above := child.depth_eq
    rw [shallow o here] at above
    omega
  rw [order, childTotal_add, none, Nat.add_zero, childTotal_aggregation few]

theorem acceptable_order (few : names.card < 2 ^ 63) (order : ↑xs = aggregation names + bare)
    (ok : ∀ o ∈ bare, o.Acceptable) : ∀ o ∈ xs, o.Acceptable := by
  intro o here
  rcases (mem_order_iff order).mp here with told | added
  · exact acceptable_of_mem_aggregation few told
  · exact ok o added

theorem complete_aggregation_iff {level : BaseLevel} (few : names.card < 2 ^ 63)
    (order : ↑xs = aggregation names + bare)
    (shallow : ∀ o ∈ bare, 1 ≤ level.depth ∧ Name.depth o.1 = 0 ∧ o.Acceptable) (name : String) :
    name ∈ ((empty level).observe xs).completeNames ↔
      Name.depth name = level.depth ∧ ∃ p ∈ names, p.name = name := by
  have ok := acceptable_order few order fun o here => (shallow o here).2.2
  have flat : ∀ o ∈ bare, Name.depth o.1 = 0 := fun o here => (shallow o here).2.1
  rw [(reflects_observe_acceptable level ok).complete_iff]
  refine and_congr_right fun same => ?_
  have apart : ∀ o ∈ bare, o.1 ≠ name := by
    rintro o here rfl
    have deep := (shallow o here).1
    rw [← same, flat o here] at deep
    omega
  constructor
  · intro more
    obtain ⟨o, here, rfl⟩ := exists_of_lastOwn_pos (Nat.zero_lt_of_lt more)
    rcases (mem_order_iff order).mp here with told | added
    · obtain ⟨p, leads, rfl⟩ := mem_aggregation_iff.mp told
      rw [lastOwn_path few order apart leads, childTotal_path few order flat,
        card_following] at more
      refine ⟨p, ?_, rfl⟩
      by_contra other
      rw [if_neg other] at more
      omega
    · exact absurd rfl (apart o added)
  · rintro ⟨p, named, rfl⟩
    rw [lastOwn_path few order apart ⟨p, named, Path.Leads.refl p⟩,
      childTotal_path few order flat, card_following, if_pos named]
    omega

theorem nextLevel_aggregation_iff {level : BaseLevel} (few : names.card < 2 ^ 63)
    (order : ↑xs = aggregation names + bare)
    (shallow : ∀ o ∈ bare, Name.depth o.1 = 0 ∧ o.Acceptable) (name : String) :
    name ∈ ((empty level).observe xs).nextLevelNames ↔
      Name.depth name = level.depth ∧
        ∃ p : Path, p.name = name ∧ ∃ q ∈ names, p.Leads q ∧ p ≠ q := by
  have ok := acceptable_order few order fun o here => (shallow o here).2
  rw [(reflects_observe_acceptable level ok).next_iff]
  refine and_congr_right fun same => ?_
  constructor
  · rintro ⟨o, here, child⟩
    rcases (mem_order_iff order).mp here with told | added
    · obtain ⟨q, ⟨m, named, leads⟩, rfl⟩ := mem_aggregation_iff.mp told
      obtain ⟨p, rfl⟩ := Path.exists_path_of_isChild child
      obtain ⟨higher, other, -⟩ := Path.Leads.of_isChild child leads
      exact ⟨p, rfl, m, named, higher, other⟩
    · have above := child.depth_eq
      rw [(shallow o added).1] at above
      omega
  · rintro ⟨p, rfl, q, named, leads, other⟩
    have told := mem_aggregation_iff.mpr
      ⟨q.first p.segments.length, ⟨q, named, q.first_leads _⟩, rfl⟩
    exact ⟨_, (mem_order_iff order).mpr (Or.inl told), leads.isChild_first other⟩

/-- Fed with the true aggregation of some names, a catalog recovers them, whatever the order. -/
theorem recovers_names (level : BaseLevel) (names : Finset Path) (few : names.card < 2 ^ 63)
    (bare : Multiset Observation)
    (shallow : ∀ o ∈ bare, 1 ≤ level.depth ∧ Name.depth o.1 = 0 ∧ o.Acceptable)
    (xs : List Observation) (order : ↑xs = aggregation names + bare) :
    (∀ before o after, xs = before ++ o :: after →
      (((empty level).observe before).add o.1 o.2).result = .ok ()) ∧
    (∀ name, name ∈ ((empty level).observe xs).completeNames ↔
      Name.depth name = level.depth ∧ ∃ p ∈ names, p.name = name) ∧
    (∀ name, name ∈ ((empty level).observe xs).nextLevelNames ↔
      Name.depth name = level.depth ∧
        ∃ p : Path, p.name = name ∧ ∃ q ∈ names, p.Leads q ∧ p ≠ q) := by
  refine ⟨fun before o after split => ?_, complete_aggregation_iff few order shallow,
    nextLevel_aggregation_iff few order fun o here => (shallow o here).2⟩
  have ok := acceptable_order few order fun o here => (shallow o here).2.2
  have here : o ∈ xs := split ▸ List.mem_append_right _ List.mem_cons_self
  exact (Catalog.add_of_acceptable _ (ok o here)).1

end Orders

def hostNames : Finset Path :=
  {⟨["h"], by decide, by decide⟩, ⟨["h", "c"], by decide, by decide⟩,
    ⟨["h", "c", "u"], by decide, by decide⟩, ⟨["h", "m", "f"], by decide, by decide⟩}

def hostBuckets : List Observation :=
  [("h.m.f", 1), ("h.c", 2), ("z", 9), ("h.c.u", 1), ("h", 4), ("h.m", 1)]

/-- At base level one: `h.c` is a name that leads on, `h.m` only leads on, `z` is set aside. -/
theorem recovers_names_host :
    (hostNames.card < 2 ^ 63 ∧
      (∀ o ∈ ({("z", 9)} : Multiset Observation),
        1 ≤ (⟨1⟩ : BaseLevel).depth ∧ Name.depth o.1 = 0 ∧ o.Acceptable) ∧
      ↑hostBuckets = aggregation hostNames + {("z", 9)}) ∧
    "h.c" ∈ ((empty ⟨1⟩).observe hostBuckets).completeNames ∧
    "h.m" ∉ ((empty ⟨1⟩).observe hostBuckets).completeNames := by
  have few : hostNames.card < 2 ^ 63 := by decide
  have shallow : ∀ o ∈ ({("z", 9)} : Multiset Observation),
      1 ≤ (⟨1⟩ : BaseLevel).depth ∧ Name.depth o.1 = 0 ∧ o.Acceptable := by decide
  have order : ↑hostBuckets = aggregation hostNames + {("z", 9)} := by decide +kernel
  have complete := (recovers_names ⟨1⟩ hostNames few _ shallow hostBuckets order).2.1
  refine ⟨⟨few, shallow, order⟩, (complete "h.c").mpr (by decide), fun here => ?_⟩
  have named := ((complete "h.m").mp here).2
  revert named
  decide

end MetricCatalog.Catalog
