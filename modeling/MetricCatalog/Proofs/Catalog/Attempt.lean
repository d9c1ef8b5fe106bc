import MetricCatalog.Proofs.Catalog.Session

/-!
# The observations that reach a catalog

Whatever a session is asked to do, a catalog changes by one observation after the other. Which ones
reach it can be told from the requests alone: of a list, all up to the first that is refused, this
one included; of buckets, only those before the first without a term. `Update.Observes` says of an
update that it leaves, and tells, what its observations leave and tell; a step of a session is then
an update of this kind, a look at the catalog, or a move between the catalog and its saved copy.
-/

namespace MetricCatalog

/-- What a bucket reports, if it has a term. -/
def Bucket.observation? (bucket : Bucket) : Option Observation :=
  bucket.key.map fun key => (key, bucket.count)

namespace Observation

/-- The observations made of a list, the last of which may be refused. -/
def upToRefusal : List Observation → List Observation
  | [] => []
  | o :: rest => o :: if o.Acceptable then upToRefusal rest else []

/-- The observations made of buckets. One without a term ends them and is none itself. -/
def ofBuckets (buckets : List Bucket) : List Observation :=
  upToRefusal ((buckets.takeWhile fun bucket => bucket.key.isSome).filterMap Bucket.observation?)

/-- The one counter that counts an observation. -/
def counter (level : BaseLevel) (o : Observation) : Counter :=
  match o.failure? with
  | some failure => .rejections failure.reason
  | none => .observations (level.place o.1).outcome

/-- The one line of the log about an observation. -/
def event (level : BaseLevel) (o : Observation) : Event :=
  match o.failure? with
  | some failure => .rejected o.1 o.2 failure
  | none => .placed o.1 o.2 level (level.place o.1).outcome

/-- What a catalog tells of an observation, whatever it holds. -/
def told (level : BaseLevel) (o : Observation) : List Signal :=
  ((Catalog.empty level).add o.1 o.2).signals

end Observation

namespace Catalog

open Observation

theorem signals_add (c : Catalog) (o : Observation) :
    (c.add o.1 o.2).signals = told c.level o := by
  rw [told, add, add]
  cases validate o.1 o.2 <;> rfl

/-- An observation is told as an event, and counted once. -/
theorem told_eq (level : BaseLevel) (o : Observation) :
    told level o = [.event (o.event level), .count (o.counter level)] := by
  cases refused : o.failure? with
  | none =>
    rw [told, add, validate_of_acceptable (failure?_eq_none_iff.mp refused), event, counter,
      refused]
    rfl
  | some failure =>
    rw [told, add, validate_of_failure refused, event, counter, refused]

theorem level_record (c : Catalog) (index : String) (count : UInt64) (placement : Placement) :
    (c.record index count placement).level = c.level := by
  cases placement <;> rfl

theorem level_add (c : Catalog) (o : Observation) :
    (c.add o.1 o.2).catalog.level = c.level := by
  by_cases ok : o.Acceptable
  · rw [(c.add_of_acceptable ok).2, level_record]
  · rw [(c.add_of_not_acceptable ok).2]

theorem observe_keeps {P : Catalog → Prop}
    (kept : ∀ (c : Catalog) (o : Observation), P c → P (c.add o.1 o.2).catalog) {c : Catalog}
    (holds : P c) (xs : List Observation) : P (c.observe xs) := by
  induction xs generalizing c with
  | nil => exact holds
  | cons o xs ih => exact ih (kept c o holds)

theorem level_observe (c : Catalog) (xs : List Observation) : (c.observe xs).level = c.level :=
  observe_keeps (fun d o same => (d.level_add o).trans same) rfl xs

/-- An update of a catalog that amounts to observing `xs`. -/
structure Update.Observes (u : Update) (c : Catalog) (xs : List Observation) : Prop where
  catalog_eq : u.catalog = c.observe xs
  signals_eq : u.signals = xs.flatMap (told c.level)

theorem observes_add (c : Catalog) (o : Observation) : (c.add o.1 o.2).Observes c [o] where
  catalog_eq := rfl
  signals_eq := by rw [signals_add, List.flatMap_singleton]

theorem observes_nothing (c : Catalog) (result : Except Failure Unit) :
    (⟨c, result, []⟩ : Update).Observes c [] :=
  ⟨rfl, rfl⟩

/-- An observation is followed by others only if it is not refused. -/
theorem observes_andThen (c : Catalog) (o : Observation) {next : Catalog → Update}
    {ys : List Observation} (following : ∀ d, (next d).Observes d ys) :
    ((c.add o.1 o.2).andThen next).Observes c (o :: if o.Acceptable then ys else []) := by
  have first := c.observes_add o
  by_cases ok : o.Acceptable
  · have second := following (c.add o.1 o.2).catalog
    rw [if_pos ok, Update.andThen, (c.add_of_acceptable ok).1]
    refine ⟨second.catalog_eq, ?_⟩
    rw [List.flatMap_cons, ← signals_add]
    exact congrArg _ (second.signals_eq.trans (by rw [level_add]))
  · obtain ⟨failure, refused⟩ := (c.add_of_not_acceptable ok).1
    rw [if_neg ok, Update.andThen, refused]
    exact first

theorem observes_addAll (c : Catalog) (xs : List Observation) :
    (c.addAll xs).Observes c (upToRefusal xs) := by
  induction xs generalizing c with
  | nil => exact c.observes_nothing _
  | cons o xs ih => exact c.observes_andThen o ih

theorem observes_feed (c : Catalog) (buckets : List Bucket) :
    (c.feed buckets).Observes c (ofBuckets buckets) := by
  induction buckets generalizing c with
  | nil => exact c.observes_nothing _
  | cons bucket buckets ih =>
    obtain ⟨key, count⟩ := bucket
    cases key with
    | none => exact c.observes_nothing _
    | some key => exact c.observes_andThen (key, count) ih

section Requests

/-- The observations made of a response, if there is one. -/
def Source.attempts (source : Source) : List Observation :=
  match source.response with
  | .error _ => []
  | .ok response => ofBuckets response.buckets

/-- The observations that a step makes, the last of which may be refused. -/
def Step.attempts : Step → List Observation
  | .add index count => [(index, count)]
  | .addAll observations => upToRefusal observations
  | .feed source => source.attempts
  | _ => []

/-- The base level that is asked for. -/
def Opening.level : Opening → BaseLevel
  | .standard => ⟨0⟩
  | .signed level => ⟨level.toInt.toNat⟩
  | .unsigned level => level
  | .response level _ => level

/-- The observations that making a catalog takes. -/
def Opening.attempts : Opening → List Observation
  | .response _ source => source.attempts
  | _ => []

/-- What is told of a look at a catalog. -/
def Step.looking (c : Catalog) : Step → List Signal
  | .completeNames => c.deriveComplete.2
  | .listing => c.listing.2
  | _ => []

theorem Opening.eq_of_catalog {opening : Opening} {c : Catalog}
    (made : opening.catalog.1 = .ok c) :
    c = (empty opening.level).observe opening.attempts := by
  cases opening with
  | standard =>
    cases made
    rfl
  | signed level =>
    rw [Opening.catalog, ofSigned, BaseLevel.ofSigned] at made
    split at made
    · cases made
    · cases made
      rfl
  | unsigned level =>
    cases made
    rfl
  | response level source =>
    rw [Opening.attempts, Source.attempts]
    cases received : source.response with
    | error failure =>
      simp only [Opening.catalog, received] at made
      cases made
    | ok response =>
      simp only [Opening.catalog, received, ofResponse] at made
      split at made
      · cases made
      · cases made
        exact ((empty level).observes_feed response.buckets).catalog_eq

/-- Making a catalog tells of its observations, and then at most of its success. -/
theorem Opening.signals_catalog (opening : Opening) :
    ∃ events : List Event, (∀ e ∈ events, e.severity = .debug) ∧ opening.catalog.2 =
      opening.attempts.flatMap (told opening.level) ++ events.map .event := by
  have nothing : ∀ e ∈ ([] : List Event), e.severity = .debug := by simp
  cases opening with
  | standard => exact ⟨[], nothing, rfl⟩
  | signed level => exact ⟨[], nothing, rfl⟩
  | unsigned level => exact ⟨[], nothing, rfl⟩
  | response level source =>
    rw [Opening.attempts, Source.attempts]
    cases received : source.response with
    | error failure => exact ⟨[], nothing, by simp only [Opening.catalog, received]; rfl⟩
    | ok response =>
      have fed := ((empty level).observes_feed response.buckets).signals_eq
      simp only [Opening.catalog, received, ofResponse]
      split
      · exact ⟨[], nothing, fed.trans (List.append_nil _).symm⟩
      · exact ⟨[.responseCataloged level response.buckets.length], by simp [Event.severity],
          congrArg (· ++ _) fed⟩

namespace Session

/-- A step tells of its observations, or of looking. -/
theorem signals_step (s : Session) (request : Step) :
    (s.step request).2.2 =
      request.attempts.flatMap (told s.current.level) ++ request.looking s.current := by
  cases request with
  | add index count =>
    exact (s.current.observes_add (index, count)).signals_eq.trans (List.append_nil _).symm
  | addAll list =>
    exact (s.current.observes_addAll list).signals_eq.trans (List.append_nil _).symm
  | feed source =>
    rw [Step.attempts, Source.attempts, step]
    cases source.response with
    | error failure => rfl
    | ok response =>
      exact (s.current.observes_feed response.buckets).signals_eq.trans (List.append_nil _).symm
  | nextLevelNames => rfl
  | completeNames => rfl
  | listing => rfl
  | counts name => rfl
  | baseLevel => rfl
  | save => rfl
  | restore => rfl

/-- A step that neither saves nor restores amounts to its observations. -/
theorem step_eq_advance (s : Session) {request : Step} (noSave : request ≠ .save)
    (noRestore : request ≠ .restore) :
    (s.step request).1 = s.advance (s.current.observe request.attempts) := by
  cases request with
  | addAll list => exact congrArg s.advance (s.current.observes_addAll list).catalog_eq
  | feed source =>
    rw [Step.attempts, Source.attempts, step]
    cases source.response with
    | error failure => rfl
    | ok response => exact congrArg s.advance (s.current.observes_feed response.buckets).catalog_eq
  | save => exact absurd rfl noSave
  | restore => exact absurd rfl noRestore
  | _ => rfl

/-- All that a step can do to a catalog and its copy: observe, save, or restore. -/
theorem step_cases (s : Session) (request : Step) :
    (s.step request).1 = s.advance (s.current.observe request.attempts) ∨
      (request.attempts = [] ∧ ((s.step request).1 = s.save ∨ (s.step request).1 = s.restore)) := by
  cases request with
  | save => exact Or.inr ⟨rfl, Or.inl rfl⟩
  | restore => exact Or.inr ⟨rfl, Or.inr rfl⟩
  | _ => exact Or.inl (s.step_eq_advance (by simp) (by simp))

/-- What no observation breaks, no step breaks, neither in the catalog nor in its copy. -/
theorem step_keeps {P : Catalog → Prop}
    (kept : ∀ (c : Catalog) (o : Observation), P c → P (c.add o.1 o.2).catalog)
    {s : Session} (current : P s.current) (saved : P s.saved) (request : Step) :
    P (s.step request).1.current ∧ P (s.step request).1.saved := by
  rcases s.step_cases request with moved | ⟨-, moved | moved⟩
  · rw [moved]
    exact ⟨observe_keeps kept current _, saved⟩
  · rw [moved]
    exact ⟨current, current⟩
  · rw [moved]
    exact ⟨saved, saved⟩

theorem after_keeps {P : Catalog → Prop}
    (kept : ∀ (c : Catalog) (o : Observation), P c → P (c.add o.1 o.2).catalog)
    {s : Session} (current : P s.current) (saved : P s.saved) (steps : List Step) :
    P (s.after steps).current ∧ P (s.after steps).saved := by
  induction steps generalizing s with
  | nil => exact ⟨current, saved⟩
  | cons request rest ih =>
    obtain ⟨current, saved⟩ := step_keeps kept current saved request
    exact ih current saved

theorem level_step {s : Session} {level : BaseLevel} (current : s.current.level = level)
    (saved : s.saved.level = level) (request : Step) :
    (s.step request).1.current.level = level ∧ (s.step request).1.saved.level = level :=
  step_keeps (fun c o same => (c.level_add o).trans same) current saved request

end Session

end Requests

end Catalog

end MetricCatalog
