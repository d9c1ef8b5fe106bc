import MetricCatalog.Proofs.Catalog.Attempt

/-!
# Lists are taken up to the first refusal

Observations and buckets are taken up in the same way: a member of a list offers an observation, or
none if it is a bucket without a term, and the longest part of the list before a refused member is
taken up as if its observations had been made one by one. `TakesLongestPrefix` is this law with the
failure that answers a refusal; two lists in a row are one list.
-/

namespace MetricCatalog

/-- The bucket that reports an observation. -/
def Bucket.ofObservation (o : Observation) : Bucket := ⟨some o.1, o.2⟩

namespace Catalog

open Observation

/-- A member of a list is taken up when it offers an acceptable observation. -/
def Accepted (offered : Option Observation) : Prop := ∃ o ∈ offered, o.Acceptable

instance (offered : Option Observation) : Decidable (Accepted offered) :=
  match offered with
  | none => isFalse (by simp [Accepted])
  | some o => decidable_of_iff o.Acceptable (by simp [Accepted])

/-- Why a member of a list is refused. A missing or empty index counts before a negative count. -/
def refusal : Option Observation → Failure
  | none => .emptyIndex
  | some o => if o.1 = "" then .emptyIndex else .negativeCount o.1 o.2

/-- The updates by one observation after the other, whatever becomes of each. -/
def updates (c : Catalog) : List Observation → List Update
  | [] => []
  | o :: rest => c.add o.1 o.2 :: (c.add o.1 o.2).catalog.updates rest

/-- What a catalog tells when it observes one name after the other. -/
def signalsOf (c : Catalog) (xs : List Observation) : List Signal :=
  (c.updates xs).flatMap Update.signals

/-- Takes up what one member of a list offers. -/
def takeOne (c : Catalog) : Option Observation → Update
  | none => ⟨c, .error .emptyIndex, []⟩
  | some o => c.add o.1 o.2

/-- Takes up what the members of a list offer, to the first that is refused. -/
def takeUp {α : Type} (offer : α → Option Observation) (c : Catalog) : List α → Update
  | [] => ⟨c, .ok (), []⟩
  | x :: rest => (c.takeOne (offer x)).andThen fun next => next.takeUp offer rest

/-- A way to take up lists that amounts to observing the names before the first refused member. -/
structure TakesLongestPrefix {α : Type} (run : Catalog → List α → Update)
    (offer : α → Option Observation) : Prop where
  result_ok_iff : ∀ c xs, (run c xs).result = .ok () ↔ ∀ x ∈ xs, Accepted (offer x)
  of_accepted : ∀ c xs, (∀ x ∈ xs, Accepted (offer x)) →
    (run c xs).catalog = c.observe (xs.filterMap offer) ∧
      (run c xs).signals = c.signalsOf (xs.filterMap offer)
  of_refused : ∀ c before x after, (∀ y ∈ before, Accepted (offer y)) → ¬ Accepted (offer x) →
    (run c (before ++ x :: after)).catalog = c.observe (before.filterMap offer) ∧
      (run c (before ++ x :: after)).result = .error (refusal (offer x)) ∧
      (run c (before ++ x :: after)).signals =
        c.signalsOf (before.filterMap offer ++ (offer x).toList)
  append : ∀ c xs ys, run c (xs ++ ys) = (run c xs).andThen fun next => run next ys

theorem Update.andThen_assoc (u : Update) (f g : Catalog → Update) :
    (u.andThen f).andThen g = u.andThen fun c => (f c).andThen g := by
  obtain ⟨c, failure | _, signals⟩ := u
  · rfl
  · simp only [andThen]
    obtain ⟨d, failure | _, more⟩ := f c
    · rfl
    · simp

theorem signalsOf_append (c : Catalog) (xs ys : List Observation) :
    c.signalsOf (xs ++ ys) = c.signalsOf xs ++ (c.observe xs).signalsOf ys := by
  induction xs generalizing c with
  | nil => rfl
  | cons o xs ih =>
    have others := ih (c.add o.1 o.2).catalog
    simp only [signalsOf, List.cons_append, updates, List.flatMap_cons, List.append_assoc]
      at others ⊢
    exact congrArg _ others

theorem signalsOf_eq (c : Catalog) (xs : List Observation) :
    c.signalsOf xs = xs.flatMap (told c.level) := by
  induction xs generalizing c with
  | nil => rfl
  | cons o xs ih =>
    have others := ih (c.add o.1 o.2).catalog
    rw [level_add] at others
    rw [List.flatMap_cons, ← others, ← c.signals_add]
    rfl

section One

variable (c : Catalog) {offered : Option Observation}

theorem takeOne_of_accepted (ok : Accepted offered) :
    c.takeOne offered = ⟨c.observe offered.toList, .ok (), c.signalsOf offered.toList⟩ := by
  obtain ⟨o, rfl, acceptable⟩ := ok
  have result := (c.add_of_acceptable acceptable).1
  simp [takeOne, observe, signalsOf, updates, ← result]

theorem refusal_of_acceptable {o : Observation} (refused : ¬ o.Acceptable) :
    o.failure? = some (refusal (some o)) := by
  by_cases unnamed : o.1 = ""
  · simp [failure?, refusal, unnamed]
  · have negative : o.2 < 0 := by
      by_contra positive
      exact refused ⟨unnamed, Int64.not_lt.mp positive⟩
    simp [failure?, refusal, unnamed, negative]

theorem takeOne_of_refused (refused : ¬ Accepted offered) :
    c.takeOne offered = ⟨c, .error (refusal offered), c.signalsOf offered.toList⟩ := by
  cases offered with
  | none => rfl
  | some o =>
    have failed := refusal_of_acceptable fun ok => refused ⟨o, rfl, ok⟩
    obtain ⟨result, same⟩ := c.add_of_failure failed
    calc c.add o.1 o.2
        = ⟨(c.add o.1 o.2).catalog, (c.add o.1 o.2).result, (c.add o.1 o.2).signals⟩ := rfl
      _ = ⟨c, .error (refusal (some o)), (c.add o.1 o.2).signals⟩ := by rw [same, result]
      _ = ⟨c, .error (refusal (some o)), c.signalsOf [o]⟩ := by simp [signalsOf, updates]

end One

section Many

variable {α : Type} {offer : α → Option Observation}

theorem takeUp_append (c : Catalog) (xs ys : List α) :
    c.takeUp offer (xs ++ ys) = (c.takeUp offer xs).andThen fun next => next.takeUp offer ys := by
  induction xs generalizing c with
  | nil => simp [takeUp, Update.andThen]
  | cons x xs ih => simp only [List.cons_append, takeUp, ih, Update.andThen_assoc]

theorem takeUp_of_accepted (c : Catalog) {xs : List α} (ok : ∀ x ∈ xs, Accepted (offer x)) :
    c.takeUp offer xs =
      ⟨c.observe (xs.filterMap offer), .ok (), c.signalsOf (xs.filterMap offer)⟩ := by
  induction xs generalizing c with
  | nil => rfl
  | cons x xs ih =>
    have others := ih (c.observe (offer x).toList) fun y here => ok y (List.mem_cons_of_mem x here)
    have split : (x :: xs).filterMap offer = (offer x).toList ++ xs.filterMap offer := by
      rw [List.filterMap_eq_flatMap_toList, List.flatMap_cons, ← List.filterMap_eq_flatMap_toList]
    rw [split, signalsOf_append, takeUp, c.takeOne_of_accepted (ok x List.mem_cons_self),
      Update.andThen, others]
    simp [observe]

theorem takeUp_of_refused (c : Catalog) {before : List α} {x : α} (after : List α)
    (ok : ∀ y ∈ before, Accepted (offer y)) (refused : ¬ Accepted (offer x)) :
    c.takeUp offer (before ++ x :: after) =
      ⟨c.observe (before.filterMap offer), .error (refusal (offer x)),
        c.signalsOf (before.filterMap offer ++ (offer x).toList)⟩ := by
  rw [takeUp_append, c.takeUp_of_accepted ok, signalsOf_append]
  simp only [takeUp, takeOne_of_refused _ refused, Update.andThen]

/-- A list is accepted as a whole, or there is a first member that is not. -/
theorem accepted_or_split (offer : α → Option Observation) (xs : List α) :
    (∀ x ∈ xs, Accepted (offer x)) ∨ ∃ before x after, xs = before ++ x :: after ∧
      (∀ y ∈ before, Accepted (offer y)) ∧ ¬ Accepted (offer x) := by
  cases first : xs.find? fun x => ¬ Accepted (offer x) with
  | none =>
    left
    simpa using first
  | some x =>
    obtain ⟨refused, before, after, split, ok⟩ := List.find?_eq_some_iff_append.mp first
    exact Or.inr ⟨before, x, after, split, by simpa using ok, by simpa using refused⟩

theorem takesLongestPrefix_takeUp (offer : α → Option Observation) :
    TakesLongestPrefix (takeUp offer) offer where
  result_ok_iff c xs := by
    constructor
    · intro done
      rcases accepted_or_split offer xs with ok | ⟨before, x, after, rfl, ok, refused⟩
      · exact ok
      · rw [c.takeUp_of_refused after ok refused] at done
        cases done
    · intro ok
      rw [c.takeUp_of_accepted ok]
  of_accepted c xs ok := by
    rw [c.takeUp_of_accepted ok]
    exact ⟨rfl, rfl⟩
  of_refused c before x after ok refused := by
    rw [c.takeUp_of_refused after ok refused]
    exact ⟨rfl, rfl, rfl⟩
  append := takeUp_append

end Many

theorem addAll_eq_takeUp : addAll = takeUp some := by
  funext c xs
  induction xs generalizing c with
  | nil => rfl
  | cons o xs ih =>
    rw [addAll, takeUp]
    exact congrArg _ (funext fun next => ih next)

theorem feed_eq_takeUp : feed = takeUp Bucket.observation? := by
  funext c buckets
  induction buckets generalizing c with
  | nil => rfl
  | cons bucket buckets ih =>
    have first : c.addBucket bucket = c.takeOne bucket.observation? := by
      obtain ⟨key, count⟩ := bucket
      cases key <;> rfl
    rw [feed, takeUp, first]
    exact congrArg _ (funext fun next => ih next)

theorem feed_ofObservation (c : Catalog) (xs : List Observation) :
    c.feed (xs.map .ofObservation) = c.addAll xs := by
  rw [feed_eq_takeUp, addAll_eq_takeUp]
  induction xs generalizing c with
  | nil => rfl
  | cons o xs ih =>
    rw [List.map_cons, takeUp, takeUp]
    exact congrArg _ (funext fun next => ih next)

theorem ofResponse_eq (level : BaseLevel) (response : Response) :
    (ofResponse level response).1 =
      ((empty level).feed response.buckets).result.map
        fun _ => ((empty level).feed response.buckets).catalog := by
  rw [ofResponse]
  cases ((empty level).feed response.buckets).result <;> rfl

/-- Buckets and observations are taken up alike: the longest acceptable part from the front, and
nothing of what follows it. Buckets that all have terms are observations, and a catalog made of a
response is an empty one fed with its buckets. -/
theorem longest_prefix :
    TakesLongestPrefix feed Bucket.observation? ∧ TakesLongestPrefix addAll some ∧
    (∀ c xs, feed c (xs.map .ofObservation) = addAll c xs) ∧
    ∀ level response, (ofResponse level response).1 =
      ((empty level).feed response.buckets).result.map
        fun _ => ((empty level).feed response.buckets).catalog := by
  refine ⟨?_, ?_, feed_ofObservation, ofResponse_eq⟩
  · rw [feed_eq_takeUp]
    exact takesLongestPrefix_takeUp _
  · rw [addAll_eq_takeUp]
    exact takesLongestPrefix_takeUp _

def brokenBuckets : List Bucket :=
  [⟨some "a.b", 2⟩, ⟨some "a", 5⟩, ⟨none, -1⟩, ⟨some "a", 9⟩]

/-- The third bucket has no term, and its count would be refused too. -/
theorem longest_prefix_broken :
    ((empty ⟨0⟩).feed brokenBuckets).result = .error .emptyIndex ∧
      ((empty ⟨0⟩).feed brokenBuckets).catalog.counts? "a" = some ⟨5, 2⟩ := by
  have taken : ∀ bucket ∈ brokenBuckets.take 2, Accepted bucket.observation? := by decide
  obtain ⟨kept, result, -⟩ := longest_prefix.1.of_refused (empty ⟨0⟩) (brokenBuckets.take 2)
    ⟨none, -1⟩ [⟨some "a", 9⟩] taken (by decide)
  exact ⟨result, (congrArg (counts? · "a") kept).trans (by decide +kernel)⟩

end Catalog

end MetricCatalog
