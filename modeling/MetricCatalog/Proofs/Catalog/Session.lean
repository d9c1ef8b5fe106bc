import MetricCatalog.Catalog.Session
import MetricCatalog.Proofs.Catalog.Observation

/-!
# Sessions told from their observations

A session that only observes names one by one and looks at its catalog ends in a catalog that is
told from the raw observations alone, without the catalog's own bookkeeping: refused observations
have left no trace, and looking has changed nothing.
-/

namespace MetricCatalog.Catalog

open Observation

/-- The observation that a step makes. -/
def Step.observation? : Step → Option Observation
  | .add index count => some (index, count)
  | _ => none

/-- Steps that observe one name, or only look. -/
def Step.ObservesOrLooks : Step → Prop
  | .add .. | .nextLevelNames | .completeNames | .listing | .counts _ | .baseLevel => True
  | .addAll _ | .feed _ | .save | .restore => False

/-- The observations of a session, in order, acceptable or not. -/
def observations (steps : List Step) : List Observation := steps.filterMap Step.observation?

/-- The session after all steps. -/
def Session.after (s : Session) (steps : List Step) : Session :=
  steps.foldl (fun s request => (s.step request).1) s

theorem Session.current_step (s : Session) {request : Step} (plain : request.ObservesOrLooks) :
    (s.step request).1.current = s.current.observe (observations [request]) := by
  cases request with
  | add index count => rfl
  | nextLevelNames => rfl
  | completeNames => rfl
  | listing => rfl
  | counts name => rfl
  | baseLevel => rfl
  | addAll list => cases plain
  | feed source => cases plain
  | save => cases plain
  | restore => cases plain

theorem Session.current_after (s : Session) (steps : List Step)
    (plain : ∀ request ∈ steps, request.ObservesOrLooks) :
    (s.after steps).current = s.current.observe (observations steps) := by
  induction steps generalizing s with
  | nil => rfl
  | cons request rest ih =>
    have first := s.current_step (plain request List.mem_cons_self)
    have others := ih (s.step request).1 fun r later => plain r (List.mem_cons_of_mem _ later)
    have split : observations (request :: rest) = observations [request] ++ observations rest := by
      rw [observations, observations, observations, ← List.filterMap_append]
      rfl
    rw [split, observe, List.foldl_append, ← observe, ← observe, ← first]
    exact others

/-- The whole catalog at the end of such a session, view by view, from the observations that were
accepted: a name's own count is the last one, its children's count the exact sum cut off at 64
bits. -/
theorem session_views (level : BaseLevel) (steps : List Step)
    (plain : ∀ request ∈ steps, request.ObservesOrLooks) :
    let c := (Session.after (.start (empty level)) steps).current
    let seen := (observations steps).filter Acceptable
    (∀ name, (c.counts? name).isSome ↔
      (Name.depth name = level.depth ∧ ∃ o ∈ seen, o.1 = name) ∨
        (Name.depth name = level.depth ∧ ∃ o ∈ seen, Name.IsChild name o.1)) ∧
    (∀ name r, c.counts? name = some r →
      r.own.toNat = lastOwn name seen ∧
        r.children.toNat = min (2 ^ 64 - 1) (childTotal name seen)) ∧
    (∀ name, name ∈ c.nextLevelNames ↔
      Name.depth name = level.depth ∧ ∃ o ∈ seen, Name.IsChild name o.1) ∧
    (∀ name, name ∈ c.completeNames ↔ ∃ r, c.counts? name = some r ∧ r.own > r.children) ∧
    (c.isEmpty = true ↔
      ∀ o ∈ seen, ¬ (Name.depth o.1 = level.depth ∨ Name.depth o.1 = level.depth + 1)) := by
  intro c seen
  have reflects : Reflects c level seen := by
    have final : c = (empty level).observe (observations steps) :=
      Session.current_after (.start (empty level)) steps plain
    rw [final]
    exact reflects_observe level (observations steps)
  refine ⟨fun name => ?_, fun name r found => ?_, reflects.next_iff, fun name => ?_, ?_⟩
  · rw [reflects.tracked_iff name, ← and_or_left]
    refine and_congr_right fun _ => ?_
    simp only [and_or_left, exists_or]
  · have same := reflects.depth_eq found
    have own := reflects.own_eq name same
    have children := reflects.children_eq name same
    rw [countsOrZero, found, Option.getD_some] at own children
    exact ⟨own, by rw [children, Nat.min_comm]; rfl⟩
  · rw [completeNames, Tally.completeNames, NameMap.mem_namesWhere_iff]
    refine exists_congr fun r => and_congr_right fun _ => ?_
    exact (Record.isComplete_iff r).trans UInt64.lt_iff_toNat_lt.symm
  · rw [reflects.isEmpty_iff]
    simp only [not_or]

def busySteps : List Step :=
  [.add "a.b" 9, .add "a.b.c" 2, .completeNames, .add "" 1, .add "a.b.c" 1, .add "a.b.d" (-4),
    .counts "a.b", .add "a.b" 4, .add "a" 7, .listing]

/-- Repeated, refused and ignored observations, with questions in between. -/
theorem session_views_busy :
    (∀ request ∈ busySteps, request.ObservesOrLooks) ∧
      ∃ r, (Session.after (.start (empty ⟨1⟩)) busySteps).current.counts? "a.b" = some r ∧
        r.own.toNat = 4 ∧ r.children.toNat = 3 := by
  have plain : ∀ request ∈ busySteps, request.ObservesOrLooks := by
    simp [busySteps, Step.ObservesOrLooks]
  obtain ⟨tracked, counts, -⟩ := session_views ⟨1⟩ busySteps plain
  obtain ⟨r, found⟩ := Option.isSome_iff_exists.mp ((tracked "a.b").mpr (by decide +kernel))
  obtain ⟨own, children⟩ := counts "a.b" r found
  refine ⟨plain, r, found, own.trans ?_, children.trans ?_⟩
  · decide +kernel
  · decide +kernel

end MetricCatalog.Catalog
