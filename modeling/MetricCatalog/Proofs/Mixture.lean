import Mathlib.Data.List.Basic

/-!
# Lists with members put in

Two lists of which one has further members are two readings of one mixture: each of its members is
marked as kept or as extra, so that it is known where the extras stand. Nothing else is assumed of
the two lists, as any sublist is read in this way.
-/

namespace MetricCatalog

/-- A member of a list, and whether the list is also read without it. -/
inductive Member (α : Type) where
  | kept (x : α)
  | extra (x : α)

def Member.value {α : Type} : Member α → α
  | .kept x => x
  | .extra x => x

/-- A list in which some members are marked as extra. -/
abbrev Mixture (α : Type) := List (Member α)

namespace Mixture

variable {α : Type}

/-- The list with its extras. -/
def whole (m : Mixture α) : List α := m.map Member.value

/-- The list without its extras. -/
def kept : Mixture α → List α
  | [] => []
  | .kept x :: m => x :: kept m
  | .extra _ :: m => kept m

/-- The extras alone. -/
def extras : Mixture α → List α
  | [] => []
  | .kept _ :: m => extras m
  | .extra x :: m => x :: extras m

theorem perm_whole (m : Mixture α) : m.whole.Perm (m.kept ++ m.extras) := by
  induction m with
  | nil => exact .refl []
  | cons x m ih =>
    cases x with
    | kept x => exact ih.cons x
    | extra x => exact (ih.cons x).trans List.perm_middle.symm

theorem kept_sublist (m : Mixture α) : m.kept.Sublist m.whole := by
  induction m with
  | nil => exact .slnil
  | cons x m ih =>
    cases x with
    | kept x => exact ih.cons_cons x
    | extra x => exact ih.cons x

/-- What a mixture keeps of a list can be any sublist of it. -/
theorem sublist_iff {xs ys : List α} :
    ys.Sublist xs ↔ ∃ m : Mixture α, m.whole = xs ∧ m.kept = ys := by
  constructor
  · intro sub
    induction sub with
    | slnil => exact ⟨[], rfl, rfl⟩
    | cons x _ ih =>
      obtain ⟨m, rfl, rfl⟩ := ih
      exact ⟨.extra x :: m, rfl, rfl⟩
    | cons_cons x _ ih =>
      obtain ⟨m, rfl, rfl⟩ := ih
      exact ⟨.kept x :: m, rfl, rfl⟩
  · rintro ⟨m, rfl, rfl⟩
    exact m.kept_sublist

theorem filter_whole (m : Mixture α) {p : α → Bool} (none : ∀ x ∈ m.extras, ¬ p x) :
    m.whole.filter p = m.kept.filter p := by
  induction m with
  | nil => rfl
  | cons x m ih =>
    cases x with
    | kept x =>
      have others := ih none
      simp only [whole, List.map_cons, kept, Member.value, List.filter_cons] at others ⊢
      rw [others]
    | extra x =>
      have first := none x List.mem_cons_self
      have others := ih fun y here => none y (List.mem_cons_of_mem x here)
      exact (List.filter_cons_of_neg first).trans others

end Mixture

end MetricCatalog
