import Mathlib.Algebra.BigOperators.Group.Finset.Piecewise
import Mathlib.Data.Fintype.Basic
import MetricCatalog.Proofs.Catalog.Accounting
import MetricCatalog.Proofs.Catalog.Feeding

/-!
# The log tells all that was done

Apart from remarks for debugging the log holds one event for each observation that reached the
catalog, and the event alone shows the observation and what became of it. So a catalog that was
never rolled back can be made again from its log, the counters can be read off it, and a step that
failed has said so in its last event. Only what never became an observation leaves no event: a
bucket without a term, and a response that cannot be read.
-/

namespace MetricCatalog

instance : Fintype Reason where
  elems := {.negativeBaseLevel, .emptyIndex, .negativeCount, .described}
  complete reason := by cases reason <;> simp

namespace Event

/-- The observation that an event of the log reports as taken up, read from the event's data. -/
def observation? (e : Event) : Option Observation :=
  if e.severity = .trace ∧ e.message = "classified metric index" then
    match e.fields.lookup "index", e.fields.lookup "doc_count" with
    | some (.text index), some (.number count) => some (index, .ofInt count)
    | _, _ => none
  else none

/-- The event reports an observation taken up with this outcome. -/
def Reports (outcome : Outcome) (e : Event) : Prop :=
  e.severity = .trace ∧ ("level", .text outcome.label) ∈ e.fields

instance (outcome : Outcome) (e : Event) : Decidable (e.Reports outcome) :=
  inferInstanceAs (Decidable (_ ∧ _))

end Event

namespace Observation

variable {level : BaseLevel} {o : Observation}

theorem event_of_acceptable (ok : o.Acceptable) :
    o.event level = .placed o.1 o.2 level (level.place o.1).outcome := by
  rw [event, failure?_eq_none_iff.mpr ok]

theorem event_of_failure {failure : Failure} (refused : o.failure? = some failure) :
    o.event level = .rejected o.1 o.2 failure := by
  rw [event, refused]

theorem severity_event_ne_debug (level : BaseLevel) (o : Observation) :
    (o.event level).severity ≠ .debug := by
  cases refused : o.failure? with
  | none => simp [event, refused, Event.severity]
  | some failure => simp [event, refused, Event.severity]

theorem observation?_event (level : BaseLevel) (o : Observation) :
    (o.event level).observation? = if o.Acceptable then some o else none := by
  by_cases ok : o.Acceptable
  · simp [event_of_acceptable ok, Event.observation?, Event.severity, Event.message, Event.fields,
      List.lookup_cons, ok]
  · obtain ⟨failure, refused⟩ := Option.ne_none_iff_exists'.mp (mt failure?_eq_none_iff.mp ok)
    simp [event_of_failure refused, Event.observation?, Event.severity, ok]

theorem label_inj {a b : Outcome} (same : a.label = b.label) : a = b := by
  cases a <;> cases b <;> simp_all [Outcome.label]

theorem reports_event_iff {outcome : Outcome} :
    (o.event level).Reports outcome ↔ o.counter level = .observations outcome := by
  rw [counter_eq_observations_iff, Event.Reports]
  by_cases ok : o.Acceptable
  · have labels : outcome.label = (level.place o.1).outcome.label ↔
        (level.place o.1).outcome = outcome :=
      ⟨fun same => (label_inj same).symm, fun same => congrArg Outcome.label same.symm⟩
    simp [event_of_acceptable ok, Event.severity, Event.fields, ok, labels]
  · obtain ⟨failure, refused⟩ := Option.ne_none_iff_exists'.mp (mt failure?_eq_none_iff.mp ok)
    simp [event_of_failure refused, Event.severity, ok]

theorem severity_event_eq_warn_iff : (o.event level).severity = .warn ↔ ¬ o.Acceptable := by
  by_cases ok : o.Acceptable
  · simp [event_of_acceptable ok, Event.severity, ok]
  · obtain ⟨failure, refused⟩ := Option.ne_none_iff_exists'.mp (mt failure?_eq_none_iff.mp ok)
    simp [event_of_failure refused, Event.severity, ok]

/-- An observation is refused for one reason. -/
theorem sum_countP_rejections (level : BaseLevel) (xs : List Observation) :
    ∑ reason : Reason, (xs.countP fun o => o.counter level = .rejections reason) =
      xs.countP fun o => ¬ o.Acceptable := by
  induction xs with
  | nil => simp
  | cons o xs ih =>
    have one : ∑ reason : Reason, (if o.counter level = .rejections reason then 1 else 0) =
        if ¬ o.Acceptable then 1 else 0 := by
      simp only [counter_eq_rejections_iff]
      by_cases ok : o.Acceptable
      · simp [failure?_eq_none_iff.mpr ok, ok]
      · obtain ⟨failure, refused⟩ := Option.ne_none_iff_exists'.mp (mt failure?_eq_none_iff.mp ok)
        simp [refused, ok, Finset.sum_ite_eq]
    simp only [List.countP_cons, decide_eq_true_iff, Finset.sum_add_distrib, ih, one]

end Observation

namespace Telemetry

/-- The log without the remarks for debugging. -/
def verdicts (signals : List Signal) : List Event :=
  (log signals).filter fun e => e.severity ≠ .debug

theorem log_append (xs ys : List Signal) : log (xs ++ ys) = log xs ++ log ys :=
  List.filterMap_append

theorem verdicts_append (xs ys : List Signal) :
    verdicts (xs ++ ys) = verdicts xs ++ verdicts ys := by
  rw [verdicts, log_append, List.filter_append]
  rfl

theorem log_events (events : List Event) : log (events.map .event) = events := by
  rw [log, List.filterMap_map]
  exact List.filterMap_some

theorem verdicts_events {events : List Event} (remarks : ∀ e ∈ events, e.severity = .debug) :
    verdicts (events.map .event) = [] := by
  rw [verdicts, log_events]
  simpa using remarks

/-- What is not said in remarks can be counted without them. -/
theorem countP_log (signals : List Signal) {p : Event → Bool}
    (said : ∀ e, p e = true → e.severity ≠ .debug) :
    (log signals).countP p = (verdicts signals).countP p := by
  rw [verdicts, List.countP_filter]
  refine List.countP_congr fun e _ => ?_
  simpa using said e

theorem filterMap_log {β : Type} (signals : List Signal) {f : Event → Option β}
    (said : ∀ e, (f e).isSome → e.severity ≠ .debug) :
    (log signals).filterMap f = (verdicts signals).filterMap f := by
  rw [verdicts, List.filterMap_filter]
  refine List.filterMap_congr fun e _ => ?_
  cases found : f e with
  | none => simp
  | some b => simp [said e (by rw [found]; rfl)]

end Telemetry

namespace Catalog

open Observation Telemetry

section Verdicts

theorem log_flatMap_told (level : BaseLevel) (xs : List Observation) :
    log (xs.flatMap (told level)) = xs.map (event level) := by
  induction xs with
  | nil => rfl
  | cons o xs ih =>
    rw [List.flatMap_cons, log_append, ih, told_eq]
    rfl

theorem verdicts_flatMap_told (level : BaseLevel) (xs : List Observation) :
    verdicts (xs.flatMap (told level)) = xs.map (event level) := by
  rw [verdicts, log_flatMap_told, List.filter_eq_self]
  intro e here
  obtain ⟨o, -, rfl⟩ := List.mem_map.mp here
  exact decide_eq_true (severity_event_ne_debug level o)

theorem verdicts_looking (c : Catalog) (request : Step) : verdicts (request.looking c) = [] := by
  cases request <;> rfl

theorem Session.verdicts_told {s : Session} {level : BaseLevel} (current : s.current.level = level)
    (saved : s.saved.level = level) (steps : List Step) :
    verdicts (s.told steps) = (steps.flatMap Step.attempts).map (event level) := by
  induction steps generalizing s with
  | nil => rfl
  | cons request rest ih =>
    obtain ⟨current', saved'⟩ := s.level_step current saved request
    rw [told_cons, verdicts_append, ih current' saved', signals_step, verdicts_append,
      verdicts_looking, current, verdicts_flatMap_told, List.flatMap_cons, List.map_append,
      List.append_nil]

theorem verdicts_run (opening : Opening) (steps : List Step) :
    verdicts (Run.of opening steps).signals =
      (attempts opening steps).map (event opening.level) := by
  obtain ⟨events, remarks, signals⟩ := opening.signals_catalog
  rw [Run.signals_of, signals, verdicts_append, verdicts_append, verdicts_events remarks,
    verdicts_flatMap_told, attempts, List.map_append, List.append_nil]
  congr 1
  cases made : opening.catalog.1 with
  | error failure => rfl
  | ok c =>
    have same := Opening.level_catalog made
    exact Session.verdicts_told (s := .start c) same same steps

end Verdicts

section Counters

variable (opening : Opening) (steps : List Step)

theorem total_eq_countP_reports (outcome : Outcome) :
    total (Run.of opening steps).signals (.observations outcome) =
      (log (Run.of opening steps).signals).countP fun e => e.Reports outcome := by
  have said (e : Event) (reports : decide (e.Reports outcome) = true) : e.severity ≠ .debug := by
    rw [(of_decide_eq_true reports).1]
    decide
  rw [total_run, countP_log _ said, verdicts_run, List.countP_map]
  refine List.countP_congr fun o _ => ?_
  simp [reports_event_iff]

theorem sum_total_eq_countP_warn :
    ∑ reason : Reason, total (Run.of opening steps).signals (.rejections reason) =
      (log (Run.of opening steps).signals).countP fun e => e.severity = .warn := by
  have said (e : Event) (warns : decide (e.severity = .warn) = true) : e.severity ≠ .debug := by
    rw [of_decide_eq_true warns]
    decide
  rw [countP_log _ said, verdicts_run, List.countP_map]
  simp only [total_run]
  rw [sum_countP_rejections]
  refine List.countP_congr fun o _ => ?_
  simp [severity_event_eq_warn_iff]

theorem filterMap_observation?_log :
    (log (Run.of opening steps).signals).filterMap Event.observation? =
      (attempts opening steps).filter Acceptable := by
  have said (e : Event) (reports : e.observation?.isSome) : e.severity ≠ .debug := by
    intro remark
    simp [Event.observation?, remark] at reports
  rw [filterMap_log _ said, verdicts_run, List.filterMap_map, ← List.filterMap_eq_filter]
  refine List.filterMap_congr fun o _ => ?_
  simp [observation?_event, Option.guard]

end Counters

section Again

theorem observe_filter (c : Catalog) (xs : List Observation) :
    c.observe (xs.filter Acceptable) = c.observe xs := by
  induction xs generalizing c with
  | nil => rfl
  | cons o xs ih =>
    by_cases ok : o.Acceptable
    · rw [List.filter_cons_of_pos (by simpa using ok)]
      exact ih (c.add o.1 o.2).catalog
    · rw [List.filter_cons_of_neg (by simpa using ok), ih]
      simp [observe, (c.add_of_not_acceptable ok).2]

theorem observe_append (c : Catalog) (xs ys : List Observation) :
    c.observe (xs ++ ys) = (c.observe xs).observe ys :=
  List.foldl_append

/-- Without a rollback a session's catalog is that of all its observations. -/
theorem Session.current_after_eq (s : Session) {steps : List Step} (forward : .restore ∉ steps) :
    (s.after steps).current = s.current.observe (steps.flatMap Step.attempts) := by
  induction steps generalizing s with
  | nil => rfl
  | cons request rest ih =>
    obtain ⟨first, others⟩ := not_or.mp (mt List.mem_cons.mpr forward)
    have moved : (s.step request).1.current = s.current.observe request.attempts := by
      cases request with
      | save => rfl
      | restore => exact absurd rfl first
      | _ => exact congrArg Checkpoint.current (s.step_eq_advance (by simp) (by simp))
    rw [List.flatMap_cons, observe_append, ← moved]
    exact ih (s.step request).1 others

/-- The step that makes an observation. -/
def Step.ofObservation (o : Observation) : Step := .add o.1 o.2

theorem flatMap_attempts_ofObservation (xs : List Observation) :
    (xs.map Step.ofObservation).flatMap Step.attempts = xs := by
  rw [List.flatMap_map]
  exact List.flatMap_singleton' xs

theorem attempts_ofObservation (level : BaseLevel) (xs : List Observation) :
    attempts (.unsigned level) (xs.map .ofObservation) = xs :=
  flatMap_attempts_ofObservation xs

theorem restore_not_mem_ofObservation (xs : List Observation) :
    .restore ∉ xs.map Step.ofObservation := by
  simp [Step.ofObservation]

theorem Session.answer_replies (s : Session) {xs : List Observation} (ok : ∀ o ∈ xs, o.Acceptable) :
    ∀ reply ∈ s.replies (xs.map .ofObservation), reply.answer = .done := by
  induction xs generalizing s with
  | nil => simp [replies]
  | cons o xs ih =>
    intro reply here
    rw [List.map_cons, replies] at here
    rcases List.mem_cons.mp here with rfl | later
    · have result := (s.current.add_of_acceptable (ok o List.mem_cons_self)).1
      simp [Update.answer, result]
    · exact ih _ (fun x there => ok x (List.mem_cons_of_mem o there)) reply later

end Again

section Failures

/-- No event of the log is a warning. -/
def Quiet (log : List Event) : Prop := ∀ e ∈ log, e.severity ≠ .warn

/-- The log's last event and no other is a warning, and it shows the failure. -/
def Warned (failure : Failure) (log : List Event) : Prop :=
  ∃ earlier warning, log = earlier ++ [warning] ∧ Quiet earlier ∧ warning.severity = .warn ∧
    ("error", .text failure.message) ∈ warning.fields

/-- The request brings a response that cannot be read. -/
def Step.Unreadable (failure : Failure) (request : Step) : Prop :=
  ∃ body, request = .feed (.text body) ∧ Response.ofText body = .error failure

/-- The request brings buckets of which the first that cannot be taken up has no term. -/
def Step.LacksTerm (request : Step) : Prop :=
  ∃ source response before bucket after, request = .feed source ∧ source.response = .ok response ∧
    response.buckets = before ++ bucket :: after ∧
    (∀ other ∈ before, Accepted other.observation?) ∧ bucket.key = none

/-- What the log of a step shows of its answer. -/
def Step.Shown (request : Step) (log : List Event) : Answer → Prop
  | .failed failure => Warned failure log ∨
      (Quiet log ∧ (request.Unreadable failure ∨ failure = .emptyIndex ∧ request.LacksTerm))
  | _ => Quiet log

theorem quiet_of_acceptable (level : BaseLevel) {xs : List Observation}
    (ok : ∀ o ∈ xs, o.Acceptable) : Quiet (xs.map (event level)) := by
  intro e here
  obtain ⟨o, there, rfl⟩ := List.mem_map.mp here
  exact fun warns => severity_event_eq_warn_iff.mp warns (ok o there)

theorem warned_of_refused (level : BaseLevel) {xs : List Observation} {o : Observation}
    (ok : ∀ o ∈ xs, o.Acceptable) (refused : ¬ o.Acceptable) :
    Warned (refusal (some o)) ((xs ++ [o]).map (event level)) := by
  refine ⟨xs.map (event level), o.event level, by simp, quiet_of_acceptable level ok,
    severity_event_eq_warn_iff.mpr refused, ?_⟩
  rw [event_of_failure (refusal_of_acceptable refused)]
  simp [Event.fields]

theorem log_signalsOf (c : Catalog) (xs : List Observation) :
    log (c.signalsOf xs) = xs.map (event c.level) := by
  rw [signalsOf_eq, log_flatMap_told]

theorem acceptable_filterMap {α : Type} {offer : α → Option Observation} {xs : List α}
    (ok : ∀ x ∈ xs, Accepted (offer x)) : ∀ o ∈ xs.filterMap offer, o.Acceptable := by
  intro o here
  obtain ⟨x, there, offered⟩ := List.mem_filterMap.mp here
  obtain ⟨o', same, acceptable⟩ := ok x there
  cases offered.symm.trans same
  exact acceptable

/-- A list is taken up quietly, or up to a member whose refusal is in the log unless the member was
no observation at all. -/
theorem shown_takeUp {α : Type} (offer : α → Option Observation) (c : Catalog) (xs : List α) :
    ((c.takeUp offer xs).result = .ok () ∧ Quiet (log (c.takeUp offer xs).signals)) ∨
      ∃ failure, (c.takeUp offer xs).result = .error failure ∧
        (Warned failure (log (c.takeUp offer xs).signals) ∨
          (Quiet (log (c.takeUp offer xs).signals) ∧ failure = .emptyIndex ∧
            ∃ before x after, xs = before ++ x :: after ∧
              (∀ y ∈ before, Accepted (offer y)) ∧ offer x = none)) := by
  rcases accepted_or_split offer xs with ok | ⟨before, x, after, rfl, ok, refused⟩
  · rw [c.takeUp_of_accepted ok, log_signalsOf]
    exact Or.inl ⟨rfl, quiet_of_acceptable _ (acceptable_filterMap ok)⟩
  · rw [c.takeUp_of_refused after ok refused, log_signalsOf]
    refine Or.inr ⟨_, rfl, ?_⟩
    cases offered : offer x with
    | none =>
      refine Or.inr ⟨?_, rfl, before, x, after, rfl, ok, offered⟩
      rw [Option.toList_none, List.append_nil]
      exact quiet_of_acceptable _ (acceptable_filterMap ok)
    | some o =>
      rw [offered] at refused
      exact Or.inl (warned_of_refused _ (acceptable_filterMap ok)
        fun acceptable => refused ⟨o, rfl, acceptable⟩)

theorem shown_update {request : Step} {u : Update}
    (told : (u.result = .ok () ∧ Quiet (log u.signals)) ∨
      ∃ failure, u.result = .error failure ∧ (Warned failure (log u.signals) ∨
        (Quiet (log u.signals) ∧
          (request.Unreadable failure ∨ failure = .emptyIndex ∧ request.LacksTerm)))) :
    request.Shown (log u.signals) u.answer := by
  rcases told with ⟨result, quiet⟩ | ⟨failure, result, shown⟩
  · rw [Update.answer, result]
    exact quiet
  · rw [Update.answer, result]
    exact shown

theorem shown_add (c : Catalog) (o : Observation) (request : Step) :
    request.Shown (log (c.add o.1 o.2).signals) (c.add o.1 o.2).answer := by
  have single : log (c.add o.1 o.2).signals = ([] ++ [o]).map (event c.level) := by
    rw [c.signals_add, told_eq]
    rfl
  refine shown_update ?_
  rw [single]
  by_cases ok : o.Acceptable
  · exact Or.inl ⟨(c.add_of_acceptable ok).1, quiet_of_acceptable _ (by simpa using ok)⟩
  · refine Or.inr ⟨_, (c.add_of_failure (refusal_of_acceptable ok)).1, Or.inl ?_⟩
    exact warned_of_refused _ (by simp) ok

theorem shown_addAll (c : Catalog) (xs : List Observation) (request : Step) :
    request.Shown (log (c.addAll xs).signals) (c.addAll xs).answer := by
  refine shown_update ?_
  rw [addAll_eq_takeUp]
  rcases shown_takeUp some c xs with taken | ⟨failure, result, warned | ⟨-, -, none⟩⟩
  · exact Or.inl taken
  · exact Or.inr ⟨failure, result, Or.inl warned⟩
  · obtain ⟨before, x, after, -, -, missing⟩ := none
    cases missing

theorem shown_feed (c : Catalog) {source : Source} {response : Response}
    (received : source.response = .ok response) :
    (Step.feed source).Shown (log (c.feed response.buckets).signals)
      (c.feed response.buckets).answer := by
  refine shown_update ?_
  rw [feed_eq_takeUp]
  rcases shown_takeUp Bucket.observation? c response.buckets with
    taken | ⟨failure, result, warned | ⟨quiet, because, before, bucket, after, split, ok, missing⟩⟩
  · exact Or.inl taken
  · exact Or.inr ⟨failure, result, Or.inl warned⟩
  · have lacking : bucket.key = none := Option.map_eq_none_iff.mp missing
    exact Or.inr ⟨failure, result, Or.inr ⟨quiet, Or.inr ⟨because, source, response, before, bucket,
      after, rfl, received, split, ok, lacking⟩⟩⟩

/-- A step that fails has warned of it, if what failed was an observation; no other step warns. -/
theorem Session.shown_step (s : Session) (request : Step) :
    request.Shown (log (s.step request).2.2) (s.step request).2.1 := by
  cases request with
  | add index count => exact shown_add s.current (index, count) _
  | addAll list => exact shown_addAll s.current list _
  | feed source =>
    rw [step]
    cases received : source.response with
    | ok response => exact shown_feed s.current received
    | error failure =>
      cases source with
      | text body => exact Or.inr ⟨by simp [Quiet, log], Or.inl ⟨body, rfl, received⟩⟩
      | buckets list => cases received
  | nextLevelNames => simp [step, Step.Shown, Quiet, log]
  | completeNames => simp [step, Step.Shown, Quiet, log, deriveComplete, Event.severity]
  | listing => simp [step, Step.Shown, Quiet, log, listing, deriveComplete, Event.severity]
  | counts name => simp [step, Step.Shown, Quiet, log]
  | baseLevel => simp [step, Step.Shown, Quiet, log]
  | save => simp [step, Step.Shown, Quiet, log]
  | restore => simp [step, Step.Shown, Quiet, log]

end Failures

/-- What the log of a session tells. Without a rollback, the observations reported as taken up,
made again one by one, all succeed and lead to the same catalog and the same counts. In any session
the counters can be read off the log, and each step's log shows whether and why it failed. -/
theorem log_complete (opening : Opening) (steps : List Step) :
    let told := (Run.of opening steps).signals
    let again := ((log told).filterMap Event.observation?).map Step.ofObservation
    (∀ c, opening.catalog.1 = .ok c → .restore ∉ steps →
      (∀ reply ∈ Session.replies (.start (empty c.level)) again, reply.answer = .done) ∧
      (Session.after (.start (empty c.level)) again).current =
        (Session.after (.start c) steps).current ∧
      ∀ outcome, total (Run.of (.unsigned c.level) again).signals (.observations outcome) =
        total told (.observations outcome)) ∧
    (∀ outcome, total told (.observations outcome) =
      (log told).countP fun e => e.Reports outcome) ∧
    (∑ reason : Reason, total told (.rejections reason) =
      (log told).countP fun e => e.severity = .warn) ∧
    ∀ (s : Session) (request : Step),
      request.Shown (log (s.step request).2.2) (s.step request).2.1 := by
  intro told again
  refine ⟨fun c made forward => ?_, total_eq_countP_reports opening steps,
    sum_total_eq_countP_warn opening steps, Session.shown_step⟩
  have same : c.level = opening.level := Opening.level_catalog made
  have taken : (log told).filterMap Event.observation? =
      (attempts opening steps).filter Acceptable := filterMap_observation?_log opening steps
  have reached : attempts opening steps = opening.attempts ++ steps.flatMap Step.attempts := by
    simp only [attempts, made]
  simp only [again, taken, same]
  refine ⟨?_, ?_, fun outcome => ?_⟩
  · refine Session.answer_replies _ fun o here => ?_
    exact of_decide_eq_true (List.mem_filter.mp here).2
  · rw [Session.current_after_eq _ (restore_not_mem_ofObservation _),
      Session.current_after_eq _ forward, flatMap_attempts_ofObservation]
    simp only [Checkpoint.start]
    rw [observe_filter, reached, observe_append, ← Opening.eq_of_catalog made]
  · rw [total_run, total_run, attempts_ofObservation, List.countP_filter]
    refine List.countP_congr fun o _ => ?_
    have level : (Opening.unsigned opening.level).level = opening.level := rfl
    rw [level, Bool.and_eq_true, decide_eq_true_iff, decide_eq_true_iff, and_iff_left_iff_imp]
    exact fun counted => (counter_eq_observations_iff.mp counted).1

def loggedSteps : List Step :=
  [.add "a.b" 2, .addAll [("a", 5), ("", 1), ("c", 1)], .save, .listing,
    .feed (.buckets [⟨some "a.c", 1⟩, ⟨none, 3⟩]), .add "a" 4]

/-- A catalog made of a response, two lists that break off, and the log that remains of all. -/
theorem log_complete_broken_off :
    let opening := Opening.response ⟨0⟩ (.buckets [⟨some "b", 1⟩])
    let c := (empty ⟨0⟩).observe [("b", 1)]
    let taken := (log (Run.of opening loggedSteps).signals).filterMap Event.observation?
    opening.catalog.1 = .ok c ∧ .restore ∉ loggedSteps ∧
      taken = [("b", 1), ("a.b", 2), ("a", 5), ("a.c", 1), ("a", 4)] ∧
      (Session.after (.start (empty ⟨0⟩)) (taken.map .ofObservation)).current =
        (Session.after (.start c) loggedSteps).current := by
  intro opening c taken
  have made : opening.catalog.1 = .ok c := by rfl
  have forward : .restore ∉ loggedSteps := by simp [loggedSteps]
  refine ⟨made, forward, by decide +kernel, ?_⟩
  exact ((log_complete opening loggedSteps).1 c made forward).2.1

end Catalog

end MetricCatalog
