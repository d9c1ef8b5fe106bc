import MetricCatalog.Proofs.Catalog.Accounting
import MetricCatalog.Proofs.Catalog.Feeding
import MetricCatalog.Proofs.Mixture

/-!
# Noise at other depths

Buckets with terms neither at the base level nor one below it may stand anywhere in a response. They
are taken up and counted, and that is all: the catalog and what becomes of the list are as without
them, also where the list breaks off, as it is never such a bucket that breaks it off.
-/

namespace MetricCatalog

open Telemetry

/-- A bucket that can be taken up, with a term at another depth than a catalog looks at. -/
def Bucket.IsNoise (level : BaseLevel) (bucket : Bucket) : Prop :=
  ∃ key, bucket.key = some key ∧ key ≠ "" ∧ 0 ≤ bucket.count ∧
    Name.depth key ≠ level.depth ∧ Name.depth key ≠ level.depth + 1

namespace Catalog

open Observation

/-- An update that does what another does, and besides counts `n` observations as ignored. -/
structure Update.Echoes (u v : Update) (n : Nat) : Prop where
  result_eq : u.result = v.result
  catalog_eq : u.catalog = v.catalog
  total_eq : ∀ k, k ≠ .observations .ignored → total u.signals k = total v.signals k
  ignored_eq : total u.signals (.observations .ignored) =
    total v.signals (.observations .ignored) + n

namespace Update.Echoes

variable {u v : Update} {n : Nat}

theorem refl (u : Update) : u.Echoes u 0 := ⟨rfl, rfl, fun _ _ => rfl, rfl⟩

/-- The same told before both. -/
theorem told_before (h : u.Echoes v n) (signals : List Signal) :
    Echoes { u with signals := signals ++ u.signals }
      { v with signals := signals ++ v.signals } n where
  result_eq := h.result_eq
  catalog_eq := h.catalog_eq
  total_eq k other := by
    have totals := h.total_eq k other
    rw [total_append, total_append, totals]
  ignored_eq := by
    have totals := h.ignored_eq
    rw [total_append, total_append]
    omega

/-- One more ignored observation before the first. -/
theorem ignored_before (h : u.Echoes v n) (e : Event) :
    Echoes { u with signals := [.event e, .count (.observations .ignored)] ++ u.signals } v
      (n + 1) where
  result_eq := h.result_eq
  catalog_eq := h.catalog_eq
  total_eq k other := by
    have totals := h.total_eq k other
    have none : total [.event e, .count (.observations .ignored)] k = 0 := by
      simp [total, other.symm]
    rw [total_append, none, totals, Nat.zero_add]
  ignored_eq := by
    have totals := h.ignored_eq
    have one : total [.event e, .count (.observations .ignored)] (.observations .ignored) = 1 := by
      simp [total]
    rw [total_append, one]
    omega

end Update.Echoes

/-- A member of a list offers an acceptable observation, which is then ignored. -/
def Ignored (level : BaseLevel) (offered : Option Observation) : Prop :=
  ∃ o ∈ offered, o.Acceptable ∧ level.place o.1 = .ignored

theorem Ignored.accepted {level : BaseLevel} {offered : Option Observation}
    (noise : Ignored level offered) : Accepted offered := by
  obtain ⟨o, here, ok, -⟩ := noise
  exact ⟨o, here, ok⟩

theorem ignored_of_isNoise {level : BaseLevel} {bucket : Bucket} (noise : bucket.IsNoise level) :
    Ignored level bucket.observation? := by
  obtain ⟨key, term, named, positive, other, notNext⟩ := noise
  refine ⟨(key, bucket.count), ?_, ⟨named, positive⟩, ?_⟩
  · simp [Bucket.observation?, term]
  · exact (level.place_eq_ignored_iff key).mpr ⟨other, notNext⟩

theorem takeOne_of_ignored (c : Catalog) {offered : Option Observation}
    (noise : Ignored c.level offered) :
    ∃ e, c.takeOne offered = ⟨c, .ok (), [.event e, .count (.observations .ignored)]⟩ := by
  obtain ⟨o, rfl, ok, ignored⟩ := noise
  refine ⟨o.event c.level, ?_⟩
  have same : c.observe [o] = c := by
    apply (c.add_of_acceptable ok).2.trans
    rw [ignored]
    rfl
  have counter : o.counter c.level = .observations .ignored := by
    apply counter_eq_observations_iff.mpr
    exact ⟨ok, by rw [ignored]; rfl⟩
  have told : c.signalsOf [o] = [.event (o.event c.level), .count (.observations .ignored)] := by
    rw [signalsOf_eq, List.flatMap_singleton, told_eq, counter]
  have taken := c.takeOne_of_accepted ⟨o, rfl, ok⟩
  rw [Option.toList_some, same, told] at taken
  exact taken

section Mixtures

variable {α : Type} {offer : α → Option Observation} {m : Mixture α} {x : α}

variable (offer) in
/-- The extras of a mixture that stand before its first member that is refused. -/
def extrasTaken (m : Mixture α) : List α :=
  Mixture.extras (m.takeWhile fun x => Accepted (offer x.value))

theorem extrasTaken_kept (ok : Accepted (offer x)) :
    extrasTaken offer (.kept x :: m) = extrasTaken offer m := by
  rw [extrasTaken, List.takeWhile_cons, if_pos (by exact decide_eq_true ok)]
  rfl

theorem extrasTaken_extra (ok : Accepted (offer x)) :
    extrasTaken offer (.extra x :: m) = x :: extrasTaken offer m := by
  rw [extrasTaken, List.takeWhile_cons, if_pos (by exact decide_eq_true ok)]
  rfl

theorem extrasTaken_refused (refused : ¬ Accepted (offer x)) :
    extrasTaken offer (.kept x :: m) = [] := by
  rw [extrasTaken, List.takeWhile_cons, if_neg (by exact mt of_decide_eq_true refused)]
  rfl

variable (offer) in
theorem takeUp_mixture {level : BaseLevel} {c : Catalog} (same : c.level = level)
    (noise : ∀ x ∈ m.extras, Ignored level (offer x)) :
    (c.takeUp offer m.whole).Echoes (c.takeUp offer m.kept) (extrasTaken offer m).length := by
  -- Both lists are taken up side by side; an extra is a step of the one alone.
  induction m generalizing c with
  | nil => exact .refl _
  | cons x m ih =>
    cases x with
    | kept x =>
      change ((c.takeOne (offer x)).andThen fun next => next.takeUp offer (Mixture.whole m)).Echoes
        ((c.takeOne (offer x)).andThen fun next => next.takeUp offer (Mixture.kept m)) _
      by_cases ok : Accepted (offer x)
      · have others := ih ((c.level_observe (offer x).toList).trans same) noise
        rw [c.takeOne_of_accepted ok, extrasTaken_kept ok]
        exact others.told_before _
      · rw [c.takeOne_of_refused ok, extrasTaken_refused ok]
        exact .refl _
    | extra x =>
      have noisy : Ignored c.level (offer x) := same ▸ noise x List.mem_cons_self
      obtain ⟨e, first⟩ := c.takeOne_of_ignored noisy
      have others := ih same fun y here => noise y (List.mem_cons_of_mem x here)
      change ((c.takeOne (offer x)).andThen fun next =>
        next.takeUp offer (Mixture.whole m)).Echoes _ _
      rw [first, extrasTaken_extra noisy.accepted]
      exact others.ignored_before e

end Mixtures

/-- Noise put in between buckets, at any places, has no effect on what becomes of them and on the
catalog, whatever it held before. It shows in one counter alone: by as many as were put in before
the first bucket that is refused. -/
theorem feed_noise (c : Catalog) (m : Mixture Bucket)
    (noise : ∀ bucket ∈ m.extras, bucket.IsNoise c.level) :
    let noisy := c.feed m.whole
    let plain := c.feed m.kept
    noisy.result = plain.result ∧ noisy.catalog = plain.catalog ∧
    (∀ outcome, outcome ≠ .ignored →
      total noisy.signals (.observations outcome) = total plain.signals (.observations outcome)) ∧
    (∀ reason,
      total noisy.signals (.rejections reason) = total plain.signals (.rejections reason)) ∧
    total noisy.signals (.observations .ignored) =
      total plain.signals (.observations .ignored) +
        (Mixture.extras (m.takeWhile fun x => Accepted x.value.observation?)).length := by
  intro noisy plain
  have echo : noisy.Echoes plain (extrasTaken Bucket.observation? m).length := by
    have both := takeUp_mixture Bucket.observation? rfl fun bucket here =>
      ignored_of_isNoise (noise bucket here)
    rw [← feed_eq_takeUp] at both
    exact both
  refine ⟨echo.result_eq, echo.catalog_eq, fun outcome other => ?_, fun reason => ?_,
    echo.ignored_eq⟩
  · apply echo.total_eq
    intro same
    cases same
    exact other rfl
  · apply echo.total_eq
    intro same
    cases same

def noisyBuckets : Mixture Bucket :=
  [.extra ⟨some "z", 5⟩, .kept ⟨some "a.b", 2⟩, .extra ⟨some "a.b.c.d", 1⟩, .kept ⟨some "y", 3⟩,
    .kept ⟨none, 7⟩, .extra ⟨some "x", 1⟩, .kept ⟨some "a.b", 9⟩]

/-- One term too shallow and one too deep before the bucket that breaks the list off, and one after
it that is never reached. -/
theorem feed_noise_broken_off :
    (∀ bucket ∈ noisyBuckets.extras, bucket.IsNoise (empty ⟨1⟩).level) ∧
      ((empty ⟨1⟩).feed noisyBuckets.whole).result = .error .emptyIndex ∧
      ((empty ⟨1⟩).feed noisyBuckets.whole).catalog.completeNames = ["a.b"] ∧
      total ((empty ⟨1⟩).feed noisyBuckets.whole).signals (.observations .ignored) = 3 := by
  have noise : ∀ bucket ∈ noisyBuckets.extras, bucket.IsNoise (empty ⟨1⟩).level := by
    simp only [noisyBuckets, Mixture.extras, List.mem_cons, List.not_mem_nil, or_false]
    rintro bucket (rfl | rfl | rfl)
    · exact ⟨"z", rfl, by decide, by decide, by decide, by decide⟩
    · exact ⟨"a.b.c.d", rfl, by decide, by decide, by decide, by decide⟩
    · exact ⟨"x", rfl, by decide, by decide, by decide, by decide⟩
  obtain ⟨result, catalog, -, -, ignored⟩ := feed_noise (empty ⟨1⟩) noisyBuckets noise
  refine ⟨noise, result.trans ?_, (congrArg completeNames catalog).trans ?_, ignored.trans ?_⟩
  · decide +kernel
  · decide +kernel
  · decide +kernel

end Catalog

end MetricCatalog
