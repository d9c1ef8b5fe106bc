import MetricCatalog.Proofs.Catalog.Attempt

/-!
# The accounts of a session

What a session counts is told from its requests alone: every observation that reaches the catalog
is counted once, by what becomes of it, and nothing else is counted; rolling back takes no count
back. Sizes are sampled when the catalog is listed and at no other time. As each tracked name has
been counted at least once, the counters bound their number.
-/

namespace MetricCatalog

namespace Telemetry

theorem total_append (xs ys : List Signal) (k : Counter) :
    total (xs ++ ys) k = total xs k + total ys k :=
  List.count_append

theorem samples_append (xs ys : List Signal) (h : Histogram) :
    samples (xs ++ ys) h = samples xs h ++ samples ys h :=
  List.filterMap_append

theorem total_events (events : List Event) (k : Counter) : total (events.map .event) k = 0 := by
  apply List.count_eq_zero.mpr
  simp

theorem samples_events (events : List Event) (h : Histogram) :
    samples (events.map .event) h = [] := by
  rw [samples, List.filterMap_map]
  exact List.filterMap_eq_nil_iff.mpr fun _ _ => rfl

end Telemetry

open Telemetry

/-- The size that a histogram is given when a catalog is listed. -/
def Histogram.measure (c : Catalog) : Histogram → Nat
  | .nextLevelNames => c.nextLevelNames.length
  | .completeNames => c.completeNames.length

namespace Observation

theorem counter_eq_observations_iff {level : BaseLevel} {o : Observation} {outcome : Outcome} :
    o.counter level = .observations outcome ↔
      o.Acceptable ∧ (level.place o.1).outcome = outcome := by
  rw [counter, ← failure?_eq_none_iff]
  cases o.failure? <;> simp

theorem counter_eq_rejections_iff {level : BaseLevel} {o : Observation} {reason : Reason} :
    o.counter level = .rejections reason ↔ o.failure?.map Failure.reason = some reason := by
  rw [counter]
  cases o.failure? <;> simp

/-- How many observations concern a name that a catalog tracks. -/
def tracking (level : BaseLevel) (xs : List Observation) : Nat :=
  (xs.countP fun o => o.counter level = .observations .base) +
    xs.countP fun o => o.counter level = .observations .nextLevel

/-- An acceptable observation at a depth that a catalog looks at concerns one tracked name. -/
theorem tracking_singleton {level : BaseLevel} {o : Observation} (ok : o.Acceptable)
    (seen : (level.place o.1).outcome ≠ .ignored) : tracking level [o] = 1 := by
  have counted : o.counter level = .observations (level.place o.1).outcome :=
    counter_eq_observations_iff.mpr ⟨ok, rfl⟩
  rw [tracking, List.countP_singleton, List.countP_singleton, counted]
  cases outcome : (level.place o.1).outcome with
  | base => rfl
  | nextLevel => rfl
  | ignored => exact absurd outcome seen

theorem tracking_append (level : BaseLevel) (xs ys : List Observation) :
    tracking level (xs ++ ys) = tracking level xs + tracking level ys := by
  simp only [tracking, List.countP_append]
  omega

end Observation

namespace Catalog

open Observation

section Signals

variable (level : BaseLevel) (xs : List Observation)

theorem total_flatMap_told (k : Counter) :
    total (xs.flatMap (told level)) k = xs.countP fun o => o.counter level = k := by
  induction xs with
  | nil => rfl
  | cons o xs ih =>
    have once : total (told level o) k = if o.counter level = k then 1 else 0 := by
      rw [told_eq, total, List.count_cons, List.count_singleton]
      simp
    rw [List.flatMap_cons, total_append, ih, once, List.countP_cons, Nat.add_comm]
    simp

theorem samples_flatMap_told (h : Histogram) : samples (xs.flatMap (told level)) h = [] := by
  induction xs with
  | nil => rfl
  | cons o xs ih =>
    rw [List.flatMap_cons, samples_append, ih, told_eq]
    rfl

end Signals

/-- The catalog, if a step lists it. -/
def Step.listed (c : Catalog) : Step → List Catalog
  | .listing => [c]
  | _ => []

/-- Looking is not counted. -/
theorem total_looking (c : Catalog) (request : Step) (k : Counter) :
    total (request.looking c) k = 0 := by
  apply List.count_eq_zero.mpr
  cases request <;> simp [Step.looking, deriveComplete, listing]

theorem samples_looking (c : Catalog) (request : Step) (h : Histogram) :
    samples (request.looking c) h = (request.listed c).map h.measure := by
  cases request with
  | listing => cases h <;> rfl
  | _ => rfl

namespace Session

/-- The catalogs that the steps of a session list, each as it is then. -/
def listed (s : Session) : List Step → List Catalog
  | [] => []
  | request :: rest => request.listed s.current ++ listed (s.step request).1 rest

/-- All that the steps of a session tell. -/
def told (s : Session) (steps : List Step) : List Signal := (s.replies steps).flatMap Reply.signals

theorem told_cons (s : Session) (request : Step) (rest : List Step) :
    s.told (request :: rest) = (s.step request).2.2 ++ (s.step request).1.told rest := rfl

theorem total_told {s : Session} {level : BaseLevel} (current : s.current.level = level)
    (saved : s.saved.level = level) (steps : List Step) (k : Counter) :
    total (s.told steps) k =
      (steps.flatMap Step.attempts).countP fun o => o.counter level = k := by
  induction steps generalizing s with
  | nil => rfl
  | cons request rest ih =>
    obtain ⟨current', saved'⟩ := s.level_step current saved request
    rw [told_cons, total_append, ih current' saved', signals_step, total_append, total_looking,
      current, total_flatMap_told, List.flatMap_cons, List.countP_append, Nat.add_zero]

theorem samples_told (s : Session) (steps : List Step) (h : Histogram) :
    samples (s.told steps) h = (s.listed steps).map h.measure := by
  induction steps generalizing s with
  | nil => rfl
  | cons request rest ih =>
    rw [told_cons, samples_append, ih, signals_step, samples_append, samples_flatMap_told,
      samples_looking, listed, List.map_append, List.nil_append]

end Session

/-- The observations that reach a catalog in making it and in a session, if it could be made. -/
def attempts (opening : Opening) (steps : List Step) : List Observation :=
  opening.attempts ++
    match opening.catalog.1 with
    | .error _ => []
    | .ok _ => steps.flatMap Step.attempts

/-- The catalogs listed in a session, if one could be made. -/
def listed (opening : Opening) (steps : List Step) : List Catalog :=
  match opening.catalog.1 with
  | .error _ => []
  | .ok c => Session.listed (.start c) steps

theorem Run.signals_of (opening : Opening) (steps : List Step) :
    (Run.of opening steps).signals = opening.catalog.2 ++
      match opening.catalog.1 with
      | .error _ => []
      | .ok c => Session.told (.start c) steps := by
  rw [Run.signals, Run.of]
  rcases opening.catalog with ⟨failure | c, signals⟩ <;> rfl

theorem Opening.level_catalog {opening : Opening} {c : Catalog}
    (made : opening.catalog.1 = .ok c) : c.level = opening.level := by
  rw [opening.eq_of_catalog made]
  exact level_observe _ opening.attempts

theorem total_run (opening : Opening) (steps : List Step) (k : Counter) :
    total (Run.of opening steps).signals k =
      (attempts opening steps).countP fun o => o.counter opening.level = k := by
  obtain ⟨events, -, signals⟩ := opening.signals_catalog
  rw [Run.signals_of, signals, total_append, total_append, total_events, total_flatMap_told,
    attempts, List.countP_append, Nat.add_zero]
  congr 1
  cases made : opening.catalog.1 with
  | error failure => rfl
  | ok c =>
    have same := Opening.level_catalog made
    exact Session.total_told (s := .start c) same same steps k

theorem samples_run (opening : Opening) (steps : List Step) (h : Histogram) :
    samples (Run.of opening steps).signals h = (listed opening steps).map h.measure := by
  obtain ⟨events, -, signals⟩ := opening.signals_catalog
  rw [Run.signals_of, signals, samples_append, samples_append, samples_events,
    samples_flatMap_told, listed]
  cases opening.catalog.1 with
  | error failure => rfl
  | ok c => exact Session.samples_told (.start c) steps h

section Sizes

theorem size_add_le (c : Catalog) (o : Observation) :
    (c.add o.1 o.2).catalog.tally.size ≤ c.tally.size + tracking c.level [o] := by
  by_cases ok : o.Acceptable
  · rw [(c.add_of_acceptable ok).2]
    cases placed : c.level.place o.1 with
    | base =>
      rw [tracking_singleton ok (by simp [placed, Placement.outcome])]
      exact NameMap.size_alter_le ..
    | next parent =>
      rw [tracking_singleton ok (by simp [placed, Placement.outcome])]
      exact NameMap.size_alter_le ..
    | ignored => exact Nat.le_add_right ..
  · rw [(c.add_of_not_acceptable ok).2]
    exact Nat.le_add_right ..

theorem size_observe_le {c : Catalog} {level : BaseLevel} (same : c.level = level)
    (xs : List Observation) : (c.observe xs).tally.size ≤ c.tally.size + tracking level xs := by
  induction xs generalizing c with
  | nil => exact Nat.le_refl _
  | cons o xs ih =>
    have first := c.size_add_le o
    have others := ih ((c.level_add o).trans same)
    have split := tracking_append level [o] xs
    rw [List.singleton_append] at split
    rw [same] at first
    change ((c.add o.1 o.2).catalog.observe xs).tally.size ≤ _
    omega

/-- Both the catalog and its copy stay within what has been counted, so that no move between them
leads out of it. -/
theorem Session.size_after_le {s : Session} {level : BaseLevel} {n : Nat}
    (levels : s.current.level = level ∧ s.saved.level = level) (current : s.current.tally.size ≤ n)
    (saved : s.saved.tally.size ≤ n) (steps : List Step) :
    (s.after steps).current.tally.size ≤ n + tracking level (steps.flatMap Step.attempts) := by
  -- The bound moves with the induction: a step raises it for the copy too, which did not grow.
  induction steps generalizing s n with
  | nil => exact current
  | cons request rest ih =>
    have levels' := s.level_step levels.1 levels.2 request
    have grown := size_observe_le levels.1 request.attempts
    have sizes : (s.step request).1.current.tally.size ≤ n + tracking level request.attempts ∧
        (s.step request).1.saved.tally.size ≤ n + tracking level request.attempts := by
      rcases s.step_cases request with moved | ⟨-, moved | moved⟩
      · rw [moved]
        exact ⟨by simp only [Checkpoint.advance]; omega, Nat.le_add_right_of_le saved⟩
      · rw [moved]
        exact ⟨Nat.le_add_right_of_le current, Nat.le_add_right_of_le current⟩
      · rw [moved]
        exact ⟨Nat.le_add_right_of_le saved, Nat.le_add_right_of_le saved⟩
    have others := ih levels' sizes.1 sizes.2
    rw [List.flatMap_cons, tracking_append, ← Nat.add_assoc]
    exact others

end Sizes

/-- The accounts of a session, its catalog made or not: each counter from the observations that
reached the catalog, each histogram from the catalogs listed, and no more names tracked than
counted. -/
theorem accounts (opening : Opening) (steps : List Step) :
    let told := (Run.of opening steps).signals
    let reached := attempts opening steps
    (∀ outcome, total told (.observations outcome) =
      reached.countP fun o => o.Acceptable ∧ (opening.level.place o.1).outcome = outcome) ∧
    (∀ reason, total told (.rejections reason) =
      reached.countP fun o => o.failure?.map Failure.reason = some reason) ∧
    samples told .nextLevelNames =
      (listed opening steps).map (fun c => c.nextLevelNames.length) ∧
    samples told .completeNames =
      (listed opening steps).map (fun c => c.completeNames.length) ∧
    ∀ c, opening.catalog.1 = .ok c →
      (Session.after (.start c) steps).current.tally.size ≤
        total told (.observations .base) + total told (.observations .nextLevel) := by
  intro told reached
  refine ⟨fun outcome => ?_, fun reason => ?_, samples_run opening steps .nextLevelNames,
    samples_run opening steps .completeNames, fun c made => ?_⟩
  · refine (total_run opening steps _).trans (List.countP_congr fun o _ => ?_)
    simp only [decide_eq_true_iff, counter_eq_observations_iff]
  · refine (total_run opening steps _).trans (List.countP_congr fun o _ => ?_)
    simp only [decide_eq_true_iff, counter_eq_rejections_iff]
  · have same := Opening.level_catalog made
    have size : c.tally.size ≤ tracking opening.level opening.attempts := by
      have grown := size_observe_le (c := empty opening.level) rfl opening.attempts
      rw [← opening.eq_of_catalog made] at grown
      exact Nat.le_trans grown (Nat.le_of_eq (Nat.zero_add _))
    have counted : tracking opening.level reached =
        total told (.observations .base) + total told (.observations .nextLevel) := by
      rw [tracking, ← total_run, ← total_run]
    have split : reached = opening.attempts ++ steps.flatMap Step.attempts := by
      simp only [reached, attempts, made]
    rw [← counted, split, tracking_append]
    exact Session.size_after_le (s := .start c) ⟨same, same⟩ size size steps

def countedSteps : List Step :=
  [.add "a" 3, .save, .addAll [("b", 1), ("c", -1), ("d", 1)], .listing, .restore,
    .feed (.buckets [⟨some "a.x", 1⟩, ⟨some "a.b.c", 1⟩, ⟨none, 1⟩, ⟨some "a", 1⟩]), .listing]

/-- Counts outlive the restored catalog, lists break off, and a missing term is not counted. -/
theorem accounts_restored :
    let told := (Run.of (.unsigned ⟨0⟩) countedSteps).signals
    (Opening.unsigned ⟨0⟩).catalog.1 = .ok (empty ⟨0⟩) ∧
      (Session.after (.start (empty ⟨0⟩)) countedSteps).current.tally.size ≤ 3 ∧
      total told (.rejections .negativeCount) = 1 ∧ total told (.observations .ignored) = 1 ∧
      samples told .completeNames = [2, 1] := by
  intro told
  obtain ⟨placed, refused, -, complete, bound⟩ := accounts (.unsigned ⟨0⟩) countedSteps
  refine ⟨rfl, (bound (empty ⟨0⟩) rfl).trans ?_, (refused _).trans ?_, (placed _).trans ?_,
    complete.trans ?_⟩
  · rw [placed, placed]
    decide +kernel
  · decide +kernel
  · decide +kernel
  · decide +kernel

end Catalog

end MetricCatalog
