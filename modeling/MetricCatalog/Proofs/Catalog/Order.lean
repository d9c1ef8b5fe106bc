import MetricCatalog.Proofs.Catalog.Observation

/-!
# When the order of observations matters

Sums and sets do not depend on the order of observations; the own count of a name does, as the last
observation wins. So the complete names are the same in every order exactly when the observations
of each base name agree about it: either each of them alone exceeds the children's sum, or none.
-/

namespace MetricCatalog.Catalog

open Observation

theorem exists_lastOwn_eq {name : String} {xs : List Observation} (seen : ∃ o ∈ xs, o.1 = name) :
    ∃ o ∈ xs, o.1 = name ∧ lastOwn name xs = o.documents := by
  obtain ⟨o, here, same⟩ := seen
  have some : (xs.filter fun o => o.1 = name) ≠ [] :=
    List.ne_nil_of_mem (List.mem_filter.mpr ⟨here, decide_eq_true same⟩)
  have last := List.mem_filter.mp (List.getLast_mem some)
  refine ⟨_, last.1, of_decide_eq_true last.2, ?_⟩
  rw [lastOwn, List.getLast?_map, List.getLast?_eq_some_getLast some]
  rfl

/-- One of several observations may be the last. -/
theorem exists_order_with_last {m : Multiset Observation} {o : Observation} (here : o ∈ m) :
    ∃ xs : List Observation, ↑xs = m ∧ lastOwn o.1 xs = o.documents := by
  refine ⟨(m.erase o).toList ++ [o], ?_, ?_⟩
  · rw [← Multiset.coe_add, Multiset.coe_toList, Multiset.coe_singleton, add_comm,
      Multiset.singleton_add, Multiset.cons_erase here]
  · rw [lastOwn_concat, if_pos rfl]

theorem eq_of_parts {c d : Catalog} (level : c.level = d.level)
    (nextLevel : c.nextLevel = d.nextLevel) (tally : c.tally = d.tally) : c = d := by
  cases c
  cases d
  cases level
  cases nextLevel
  cases tally
  rfl

section Orders

variable (level : BaseLevel) {m : Multiset Observation} {xs ys : List Observation}

theorem reflects_order (ok : ∀ o ∈ m, o.Acceptable) (hx : ↑xs = m) :
    Reflects ((empty level).observe xs) level xs :=
  reflects_observe_acceptable level fun o here => ok o (hx ▸ Multiset.mem_coe.mpr here)

theorem exists_mem_order (hx : ↑xs = m) (P : Observation → Prop) :
    (∃ o ∈ xs, P o) ↔ ∃ o ∈ m, P o := by
  rw [← hx]
  rfl

theorem complete_order_iff (ok : ∀ o ∈ m, o.Acceptable) (hx : ↑xs = m) (name : String) :
    name ∈ ((empty level).observe xs).completeNames ↔
      Name.depth name = level.depth ∧ childTotal name m < lastOwn name xs := by
  rw [← hx]
  exact (reflects_order level ok hx).complete_iff name

theorem nextLevelNames_order (ok : ∀ o ∈ m, o.Acceptable) (hx : ↑xs = m) (hy : ↑ys = m) :
    ((empty level).observe xs).nextLevelNames = ((empty level).observe ys).nextLevelNames := by
  refine nextLevelNames_eq_iff.mpr fun name => ?_
  refine ((reflects_order level ok hx).next_iff name).trans (Iff.trans ?_
    ((reflects_order level ok hy).next_iff name).symm)
  rw [exists_mem_order hx, exists_mem_order hy]

theorem tracked_order (ok : ∀ o ∈ m, o.Acceptable) (hx : ↑xs = m) (hy : ↑ys = m) (name : String) :
    (((empty level).observe xs).counts? name).isSome ↔
      (((empty level).observe ys).counts? name).isSome := by
  rw [(reflects_order level ok hx).tracked_iff, (reflects_order level ok hy).tracked_iff,
    exists_mem_order hx, exists_mem_order hy]

theorem children_order (ok : ∀ o ∈ m, o.Acceptable) (hx : ↑xs = m) (hy : ↑ys = m) (name : String)
    (same : Name.depth name = level.depth) :
    (((empty level).observe xs).countsOrZero name).children =
      (((empty level).observe ys).countsOrZero name).children := by
  apply UInt64.toNat_inj.mp
  rw [(reflects_order level ok hx).children_eq name same,
    (reflects_order level ok hy).children_eq name same, hx, hy]

/-- What is stored under a name in either order: nothing in both, or records with the same sum. -/
theorem counts_order (ok : ∀ o ∈ m, o.Acceptable) (hx : ↑xs = m) (hy : ↑ys = m) (name : String) :
    (((empty level).observe xs).counts? name = none ∧
        ((empty level).observe ys).counts? name = none) ∨
      ∃ r q, ((empty level).observe xs).counts? name = some r ∧
        ((empty level).observe ys).counts? name = some q ∧ r.children = q.children ∧
        r.own.toNat = lastOwn name xs ∧ q.own.toNat = lastOwn name ys := by
  have both := tracked_order level ok hx hy name
  cases hr : ((empty level).observe xs).counts? name with
  | none =>
    rw [hr] at both
    exact Or.inl ⟨rfl, Option.not_isSome_iff_eq_none.mp (mt both.mpr Bool.false_ne_true)⟩
  | some r =>
    rw [hr] at both
    obtain ⟨q, hq⟩ := Option.isSome_iff_exists.mp (both.mp rfl)
    have same := (reflects_order level ok hx).depth_eq hr
    have children := children_order level ok hx hy name same
    rw [countsOrZero, hr, countsOrZero, hq] at children
    exact Or.inr ⟨r, q, rfl, hq, children, (reflects_order level ok hx).own_of_counts hr,
      (reflects_order level ok hy).own_of_counts hq⟩

/-- The own counts that two orders end with: those of two observations of the name, if any. -/
theorem lastOwn_order (hx : ↑xs = m) (hy : ↑ys = m) (name : String) :
    lastOwn name xs = lastOwn name ys ∨ ∃ o ∈ m, ∃ p ∈ m, o.1 = name ∧ p.1 = name ∧
      lastOwn name xs = o.documents ∧ lastOwn name ys = p.documents := by
  by_cases seen : ∃ o ∈ m, o.1 = name
  · obtain ⟨o, hereO, equalO, lastO⟩ := exists_lastOwn_eq ((exists_mem_order hx _).mpr seen)
    obtain ⟨p, hereP, equalP, lastP⟩ := exists_lastOwn_eq ((exists_mem_order hy _).mpr seen)
    exact Or.inr ⟨o, hx ▸ Multiset.mem_coe.mpr hereO, p, hy ▸ Multiset.mem_coe.mpr hereP, equalO,
      equalP, lastO, lastP⟩
  · have unseen {l : List Observation} (hl : ↑l = m) : lastOwn name l = 0 := by
      apply lastOwn_eq_zero
      intro o here equal
      exact seen ((exists_mem_order hl _).mp ⟨o, here, equal⟩)
    exact Or.inl ((unseen hx).trans (unseen hy).symm)

theorem completeNames_order (ok : ∀ o ∈ m, o.Acceptable) (hx : ↑xs = m) (hy : ↑ys = m)
    (agree : ∀ name, Name.depth name = level.depth →
      (∀ o ∈ m, o.1 = name → childTotal name m < o.documents) ∨
        ∀ o ∈ m, o.1 = name → o.documents ≤ childTotal name m) :
    ((empty level).observe xs).completeNames = ((empty level).observe ys).completeNames := by
  refine completeNames_eq_iff.mpr fun name => ?_
  rw [complete_order_iff level ok hx, complete_order_iff level ok hy]
  refine and_congr_right fun same => ?_
  rcases lastOwn_order hx hy name with equal | ⟨o, hereO, p, hereP, equalO, equalP, lastO, lastP⟩
  · rw [equal]
  · rw [lastO, lastP]
    rcases agree name same with above | below
    · exact ⟨fun _ => above p hereP equalP, fun _ => above o hereO equalO⟩
    · have lowO := below o hereO equalO
      have lowP := below p hereP equalP
      constructor <;> intro more <;> omega

theorem observe_order (ok : ∀ o ∈ m, o.Acceptable)
    (once : ∀ o ∈ m, ∀ p ∈ m, o.1 = p.1 → Name.depth o.1 = level.depth → o.2 = p.2)
    (hx : ↑xs = m) (hy : ↑ys = m) : (empty level).observe xs = (empty level).observe ys := by
  have tally : ((empty level).observe xs).tally = ((empty level).observe ys).tally := by
    refine NameMap.ext_find? fun name => ?_
    rcases counts_order level ok hx hy name with
      ⟨left, right⟩ | ⟨r, q, left, right, children, ownL, ownR⟩
    · exact left.trans right.symm
    · have own : lastOwn name xs = lastOwn name ys := by
        rcases lastOwn_order hx hy name with
          equal | ⟨o, hereO, p, hereP, equalO, equalP, lastO, lastP⟩
        · exact equal
        · have same := (reflects_order level ok hx).depth_eq left
          have count := once o hereO p hereP (equalO.trans equalP.symm) (equalO ▸ same)
          rw [lastO, lastP, documents, documents, count]
      have equal : r = q := by
        cases r
        cases q
        exact congr (congrArg Record.mk (UInt64.toNat_inj.mp (ownL.trans (own.trans ownR.symm))))
          children
      exact left.trans ((congrArg some equal).trans right.symm)
  have nextLevel := NameMap.ext_names (nextLevelNames_order level ok hx hy)
  have levels : ((empty level).observe xs).level = ((empty level).observe ys).level :=
    (reflects_order level ok hx).level_eq.trans (reflects_order level ok hy).level_eq.symm
  exact eq_of_parts levels nextLevel tally

/-- Which results the order of observations can change, and exactly when it does. -/
theorem order_irrelevant_iff (level : BaseLevel) (m : Multiset Observation)
    (ok : ∀ o ∈ m, o.Acceptable) :
    (∀ xs ys : List Observation, ↑xs = m → ↑ys = m →
      let c := (empty level).observe xs
      let d := (empty level).observe ys
      c.nextLevelNames = d.nextLevelNames ∧
        (∀ name, (c.counts? name).isSome ↔ (d.counts? name).isSome) ∧
        ∀ name, (c.counts? name).map Record.children = (d.counts? name).map Record.children) ∧
    ((∀ xs ys : List Observation, ↑xs = m → ↑ys = m →
        ((empty level).observe xs).completeNames = ((empty level).observe ys).completeNames) ↔
      ∀ name, Name.depth name = level.depth →
        (∀ o ∈ m, o.1 = name → childTotal name m < o.documents) ∨
          ∀ o ∈ m, o.1 = name → o.documents ≤ childTotal name m) ∧
    ((∀ o ∈ m, ∀ p ∈ m, o.1 = p.1 → Name.depth o.1 = level.depth → o.2 = p.2) →
      ∀ xs ys : List Observation, ↑xs = m → ↑ys = m →
        (empty level).observe xs = (empty level).observe ys) := by
  refine ⟨fun xs ys hx hy => ?_, ⟨fun same name base => ?_, fun agree xs ys hx hy => ?_⟩,
    fun once xs ys hx hy => observe_order level ok once hx hy⟩
  · refine ⟨nextLevelNames_order level ok hx hy, tracked_order level ok hx hy, fun name => ?_⟩
    rcases counts_order level ok hx hy name with
      ⟨left, right⟩ | ⟨r, q, left, right, children, -⟩
    · rw [left, right]
    · rw [left, right, Option.map_some, Option.map_some, children]
  · -- Two observations that disagree about the name, each put last once.
    by_contra disagree
    obtain ⟨low, high⟩ := not_or.mp disagree
    push Not at low high
    obtain ⟨o, hereO, rfl, atMost⟩ := low
    obtain ⟨p, hereP, equal, above⟩ := high
    obtain ⟨xs, hx, lastO⟩ := exists_order_with_last hereO
    obtain ⟨ys, hy, lastP⟩ := exists_order_with_last hereP
    have complete : o.1 ∈ ((empty level).observe ys).completeNames :=
      (complete_order_iff level ok hy o.1).mpr ⟨base, by rw [← equal, lastP]; rwa [equal]⟩
    rw [← same xs ys hx hy] at complete
    have more := ((complete_order_iff level ok hx o.1).mp complete).2
    omega
  · exact completeNames_order level ok hx hy agree

end Orders

def disputed : Multiset Observation :=
  {("a.b", 5), ("a.b", 3), ("a.b.c", 2), ("a.b.d", 1), ("a", 9)}

/-- Of two reports on `a.b` one exceeds the three documents below it, the other does not. -/
theorem order_irrelevant_iff_disputed :
    (∀ o ∈ disputed, o.Acceptable) ∧
      ∃ xs ys : List Observation, ↑xs = disputed ∧ ↑ys = disputed ∧
        ((empty ⟨1⟩).observe xs).completeNames ≠ ((empty ⟨1⟩).observe ys).completeNames := by
  have ok : ∀ o ∈ disputed, o.Acceptable := by decide
  refine ⟨ok, ?_⟩
  by_contra same
  push Not at same
  have agree := (order_irrelevant_iff ⟨1⟩ disputed ok).2.1.mp same "a.b" (by decide)
  revert agree
  decide

end MetricCatalog.Catalog
