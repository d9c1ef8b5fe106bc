import Mathlib.Algebra.BigOperators.Group.Multiset.Basic
import Mathlib.Data.Finset.Card
import MetricCatalog.Proofs.NameMap
import MetricCatalog.Tally

/-!
# What a tally is told

A tally is told counts of names and counts of their children. Each of its views follows from these
reports, with numbers that are not cut off: a count that would not fit into 64 bits is never the
smaller one. `Tells` says this of a tally and its reports, and one more report of either kind keeps
it.
-/

namespace MetricCatalog.Tally

/-- A count reported for a name itself, or for a child of it. -/
inductive Report where
  | own (name : String) (count : UInt64)
  | child (parent : String) (count : UInt64)
  deriving DecidableEq, Repr

/-- The name whose record a report concerns. -/
def Report.name : Report → String
  | .own name _ => name
  | .child parent _ => parent

def Report.ownOf? (name : String) : Report → Option UInt64
  | .own other count => if other = name then some count else none
  | .child .. => none

def Report.childOf? (name : String) : Report → Option UInt64
  | .own .. => none
  | .child parent count => if parent = name then some count else none

theorem Report.ownOf?_eq_some_iff {name : String} {r : Report} {count : UInt64} :
    r.ownOf? name = some count ↔ r = .own name count := by
  cases r with
  | own other => simp [ownOf?]
  | child => simp [ownOf?]

theorem Report.childOf?_eq_some_iff {name : String} {r : Report} {count : UInt64} :
    r.childOf? name = some count ↔ r = .child name count := by
  cases r with
  | own => simp [childOf?]
  | child parent => simp [childOf?]

/-- The count last reported for a name itself, or zero. -/
def lastOwn (name : String) (reports : List Report) : UInt64 :=
  (reports.filterMap (Report.ownOf? name)).getLast?.getD 0

/-- The exact sum of the counts reported for children of a name. -/
def childTotal (name : String) (reports : List Report) : Nat :=
  (((reports.filterMap (Report.childOf? name)).map UInt64.toNat : List Nat) : Multiset Nat).sum

theorem lastOwn_concat (name : String) (reports : List Report) (r : Report) :
    lastOwn name (reports ++ [r]) = (r.ownOf? name).getD (lastOwn name reports) := by
  cases found : r.ownOf? name with
  | none => simp [lastOwn, found]
  | some count => simp [lastOwn, found]

theorem childTotal_concat (name : String) (reports : List Report) (r : Report) :
    childTotal name (reports ++ [r]) =
      childTotal name reports + ((r.childOf? name).getD 0).toNat := by
  cases found : r.childOf? name with
  | none => simp [childTotal, found]
  | some count => simp [childTotal, found]

/-- The tally holds what the reports tell. -/
structure Tells (t : Tally) (reports : List Report) : Prop where
  known_iff : ∀ name, (t.find? name).isSome ↔ name ∈ reports.map Report.name
  own_eq : ∀ name, ((t.find? name).getD .zero).own = lastOwn name reports
  children_eq : ∀ name, ((t.find? name).getD .zero).children.toNat =
    min (childTotal name reports) (UInt64.size - 1)

theorem tells_empty : Tells .empty [] where
  known_iff name := by simp
  own_eq name := rfl
  children_eq name := rfl

namespace Tells

variable {t : Tally} {reports : List Report}

theorem setOwn (h : Tells t reports) (name : String) (count : UInt64) :
    Tells (t.setOwn name count) (reports ++ [.own name count]) := by
  refine ⟨fun other => ?_, fun other => ?_, fun other => ?_⟩
  · rw [find?_setOwn]
    by_cases same : other = name
    · simp [same, Report.name]
    · simpa [same, Report.name] using h.known_iff other
  · rw [find?_setOwn, lastOwn_concat]
    by_cases same : other = name
    · simp [same, Report.ownOf?]
    · simpa [same, Ne.symm same, Report.ownOf?] using h.own_eq other
  · rw [find?_setOwn, childTotal_concat]
    have old := h.children_eq other
    by_cases same : other = name
    · subst same
      simpa [Report.childOf?] using old
    · simpa [same, Report.childOf?] using old

theorem addChildren (h : Tells t reports) (name : String) (count : UInt64) :
    Tells (t.addChildren name count) (reports ++ [.child name count]) := by
  refine ⟨fun other => ?_, fun other => ?_, fun other => ?_⟩
  · rw [find?_addChildren]
    by_cases same : other = name
    · simp [same, Report.name]
    · simpa [same, Report.name] using h.known_iff other
  · rw [find?_addChildren, lastOwn_concat]
    have old := h.own_eq other
    by_cases same : other = name
    · subst same
      simpa [Report.ownOf?, Record.addChildren] using old
    · simpa [same, Report.ownOf?] using old
  · rw [find?_addChildren, childTotal_concat]
    have old := h.children_eq other
    by_cases same : other = name
    · subst same
      rw [if_pos rfl, Option.getD_some, Record.toNat_children_addChildren]
      simp only [Report.childOf?, if_pos, Option.getD_some]
      omega
    · simpa [same, Ne.symm same, Report.childOf?] using old

theorem find?_eq (h : Tells t reports) (name : String) :
    (t.find? name).map (fun r => (r.own.toNat, r.children.toNat)) =
      if name ∈ reports.map Report.name then
        some ((lastOwn name reports).toNat, min (2 ^ 64 - 1) (childTotal name reports))
      else none := by
  have known := h.known_iff name
  have own := h.own_eq name
  have children := h.children_eq name
  cases found : t.find? name with
  | none =>
    rw [found] at known
    rw [if_neg fun told => Bool.false_ne_true (known.mpr told)]
    rfl
  | some r =>
    rw [found] at known own children
    rw [if_pos (known.mp rfl), ← own, Nat.min_comm]
    exact congrArg (fun n => some (r.own.toNat, n)) children

theorem size_eq (h : Tells t reports) : t.size = (reports.map Report.name).toFinset.card := by
  have same : t.names.toFinset = (reports.map Report.name).toFinset := by
    ext name
    rw [List.mem_toFinset, List.mem_toFinset, NameMap.mem_names_iff]
    exact h.known_iff name
  rw [← same, List.toFinset_card_of_nodup t.names_nodup, NameMap.names, List.length_map]
  rfl

theorem isEmpty_iff (h : Tells t reports) : t.isEmpty = true ↔ reports = [] := by
  rw [NameMap.isEmpty_iff]
  constructor
  · intro unknown
    apply List.eq_nil_iff_forall_not_mem.mpr
    intro r told
    have known := (h.known_iff r.name).mpr (List.mem_map_of_mem told)
    rw [unknown r.name] at known
    cases known
  · rintro rfl name
    have known := h.known_iff name
    simpa using known

/-- A sum that does not fit is cut off at a number that no own count exceeds. -/
theorem complete_iff (h : Tells t reports) (name : String) :
    name ∈ t.completeNames ↔ childTotal name reports < (lastOwn name reports).toNat := by
  have own := h.own_eq name
  have children := h.children_eq name
  have small := (lastOwn name reports).toNat_lt
  have size : UInt64.size = 2 ^ 64 := rfl
  rw [completeNames, NameMap.mem_namesWhere_iff]
  cases found : t.find? name with
  | none =>
    rw [found] at own
    have zero : (lastOwn name reports).toNat = 0 := by
      rw [← own]
      rfl
    simp [zero]
  | some r =>
    rw [found, Option.getD_some] at own children
    have complete := r.isComplete_iff
    rw [own, children] at complete
    constructor
    · rintro ⟨_, same, passed⟩
      cases same
      have more := complete.mp passed
      omega
    · intro more
      exact ⟨r, rfl, complete.mpr (by omega)⟩

end Tells

end MetricCatalog.Tally
