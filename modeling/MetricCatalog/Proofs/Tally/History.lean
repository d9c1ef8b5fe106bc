import MetricCatalog.Proofs.Tally.Report
import MetricCatalog.Tally.Session

/-!
# The history that a tally tells

A tally that can be rolled back tells of the reports still in force: each `restore` takes back all
reports since the latest `save`. From these alone each view of the tally follows.
-/

namespace MetricCatalog.Tally

def Step.report? : Step → Option Report
  | .setOwn name count => some (.own name count)
  | .addChildren name count => some (.child name count)
  | .get _ | .save | .restore => none

mutual

/-- The reports in force after steps, of which the latest stands first. -/
def inForce : List Step → List Report
  | [] => []
  | .restore :: earlier => inForceAtSave earlier
  | request :: earlier => inForce earlier ++ request.report?.toList

/-- The reports that were in force at the latest `save`; there are none without a `save`. -/
def inForceAtSave : List Step → List Report
  | [] => []
  | .save :: earlier => inForce earlier
  | _ :: earlier => inForceAtSave earlier

end

/-- The effective history of steps in the order they were taken. -/
def history (steps : List Step) : List Report := inForce steps.reverse

/-- One step: the tally and its copy each tell of the reports in force for it. -/
theorem tells_step {s : Session} {earlier : List Step} (current : Tells s.current (inForce earlier))
    (saved : Tells s.saved (inForceAtSave earlier)) (request : Step) :
    Tells (s.step request).1.current (inForce (request :: earlier)) ∧
      Tells (s.step request).1.saved (inForceAtSave (request :: earlier)) := by
  cases request with
  | setOwn name count => exact ⟨current.setOwn name count, saved⟩
  | addChildren name count => exact ⟨current.addChildren name count, saved⟩
  | get name =>
    have kept : inForce (.get name :: earlier) = inForce earlier := by simp [inForce, Step.report?]
    exact ⟨kept ▸ current, saved⟩
  | save =>
    have kept : inForce (.save :: earlier) = inForce earlier := by simp [inForce, Step.report?]
    exact ⟨kept ▸ current, current⟩
  | restore => exact ⟨saved, saved⟩

theorem tells_after (steps : List Step) :
    Tells (Session.initial.after steps).current (inForce steps.reverse) ∧
      Tells (Session.initial.after steps).saved (inForceAtSave steps.reverse) := by
  -- From the end: what is in force is told by the latest step and all before it.
  induction steps using List.reverseRecOn with
  | nil => exact ⟨tells_empty, tells_empty⟩
  | append_singleton steps request ih =>
    rw [Session.after, List.foldl_append, List.reverse_append]
    exact tells_step ih.1 ih.2 request

/-- A tally at the end of a session, view by view, from its effective history: exact sums decide
which names are complete, also where the sum that is kept was cut off. -/
theorem session_history (steps : List Step) :
    let t := (Session.initial.after steps).current
    let told := history steps
    (∀ name, (t.find? name).map (fun r => (r.own.toNat, r.children.toNat)) =
      if name ∈ told.map Report.name then
        some ((lastOwn name told).toNat, min (2 ^ 64 - 1) (childTotal name told))
      else none) ∧
    t.size = (told.map Report.name).toFinset.card ∧
    (t.isEmpty = true ↔ told = []) ∧
    t.completeNames.Pairwise (· < ·) ∧
    ∀ name, name ∈ t.completeNames ↔ childTotal name told < (lastOwn name told).toNat := by
  intro t told
  have tells : Tells t told := (tells_after steps).1
  exact ⟨tells.find?_eq, tells.size_eq, tells.isEmpty_iff, t.namesWhere_ascending _,
    tells.complete_iff⟩

/-- A copy can be restored again and again. -/
example : history [.addChildren "a" 1, .save, .setOwn "a" 9, .restore, .setOwn "a" 4, .restore,
    .addChildren "b" 2] = [.child "a" 1, .child "b" 2] := by decide

end MetricCatalog.Tally
