import Mathlib.Algebra.BigOperators.Group.Multiset.Basic
import MetricCatalog.Exporter
import MetricCatalog.Proofs.Catalog.Accounting

/-!
# Totals of an exporter

An exporter's registry is determined by the signals it has taken up, in whatever portions they
came: each counter by how often it was incremented, each histogram by the sizes it was given.
-/

namespace MetricCatalog.Exporter

open Telemetry

/-- The distribution of sizes, told from the sizes at once. -/
def Distribution.of (sizes : List Nat) : Distribution where
  within := Metric.sizeLimits.map fun limit => sizes.countP fun size => size ≤ limit
  count := sizes.length
  sum := (sizes : Multiset Nat).sum

theorem Distribution.record_of (sizes : List Nat) (size : Nat) :
    (of sizes).record size = of (sizes ++ [size]) := by
  have within : (of sizes).within.length = Metric.sizeLimits.length := by simp [of]
  simp only [record, of, Distribution.mk.injEq]
  refine ⟨?_, by simp, ?_⟩
  · rw [List.zipWith_map_right, List.zipWith_self]
    refine List.map_congr_left fun limit _ => ?_
    rw [List.countP_append, List.countP_singleton]
    by_cases small : size ≤ limit
    · simp [small]
    · simp [small]
  · simp [← Multiset.coe_add]

/-- The totals of signals, told from the signals at once. -/
def Registry.of (signals : List Signal) : Registry :=
  ⟨total signals, fun h => .of (samples signals h)⟩

theorem Registry.take_of (told : List Signal) (s : Signal) :
    (Registry.of told).take s = .of (told ++ [s]) := by
  cases s with
  | event e =>
    refine congrArg₂ Registry.mk (funext fun c => ?_) (funext fun h => ?_)
    · simp [total]
    · simp [samples]
  | count c =>
    refine congrArg₂ Registry.mk (funext fun other => ?_) (funext fun h => ?_)
    · by_cases same : other = c
      · simp [of, total, same]
      · simp [of, total, same, Ne.symm same]
    · simp [of, samples]
  | sample h size =>
    refine congrArg₂ Registry.mk (funext fun c => ?_) (funext fun other => ?_)
    · simp [of, total]
    · by_cases same : other = h
      · subst same
        simp [of, samples, Distribution.record_of]
      · simp [of, samples, same, Ne.symm same]

theorem Registry.takeAll_of (told signals : List Signal) :
    (Registry.of told).takeAll signals = .of (told ++ signals) := by
  induction signals generalizing told with
  | nil => simp [takeAll]
  | cons s signals ih =>
    have others := ih (told ++ [s])
    rw [List.append_assoc, List.singleton_append] at others
    rw [takeAll, List.foldl_cons, take_of]
    exact others

/-- The exporter after one run of a catalog after the other. -/
def takeRuns (e : Exporter) (runs : List Catalog.Run) : Exporter :=
  runs.foldl (fun e run => e.takeAll run.signals) e

theorem takeRuns_installed (labels : Labels) (told : List Signal) (runs : List Catalog.Run) :
    (Exporter.installed labels (.of told)).takeRuns runs =
      .installed labels (.of (told ++ runs.flatMap Catalog.Run.signals)) := by
  induction runs generalizing told with
  | nil => simp [takeRuns]
  | cons run runs ih =>
    have others := ih (told ++ run.signals)
    rw [List.append_assoc] at others
    rw [takeRuns, List.foldl_cons, takeAll, Registry.takeAll_of, List.flatMap_cons]
    exact others

/-- An exporter started with an enabled configuration shows the totals of all runs since. -/
theorem render_takeRuns {config : Config} (enabled : config.enabled = true)
    (runs : List Catalog.Run) :
    ((Exporter.absent.start config).exporter.takeRuns runs).render =
      exposition config.labels.entries (.of (runs.flatMap Catalog.Run.signals)) := by
  have started : (Exporter.absent.start config).exporter =
      .installed config.labels.entries (.of []) := by
    rw [start, if_pos enabled]
    rfl
  rw [started, takeRuns_installed]
  rfl

theorem total_flatMap (runs : List Catalog.Run) (c : Counter) :
    total (runs.flatMap Catalog.Run.signals) c =
      ((runs.map fun run => total run.signals c : List Nat) : Multiset Nat).sum := by
  induction runs with
  | nil => rfl
  | cons run runs ih => simpa [total_append] using ih

theorem samples_flatMap (runs : List Catalog.Run) (h : Histogram) :
    samples (runs.flatMap Catalog.Run.signals) h =
      runs.flatMap fun run => samples run.signals h := by
  induction runs with
  | nil => rfl
  | cons run runs ih => rw [List.flatMap_cons, List.flatMap_cons, samples_append, ih]

end MetricCatalog.Exporter
