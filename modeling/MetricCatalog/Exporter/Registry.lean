import MetricCatalog.Telemetry

/-!
# Running totals

What an exporter knows: how often each counter was incremented and how the sizes given to each
histogram are distributed. Totals only grow; nothing tells which session a signal came from.
-/

namespace MetricCatalog.Exporter

/-- The sizes a histogram was given: how many lie within each limit, how many there were, and
their sum. -/
structure Distribution where
  within : List Nat
  count : Nat
  sum : Nat
  deriving DecidableEq, Repr

namespace Distribution

def empty : Distribution := ⟨Metric.sizeLimits.map fun _ => 0, 0, 0⟩

def record (d : Distribution) (size : Nat) : Distribution where
  within :=
    List.zipWith (fun limit n => if size ≤ limit then n + 1 else n) Metric.sizeLimits d.within
  count := d.count + 1
  sum := d.sum + size

end Distribution

/-- The totals of all counters and histograms. -/
structure Registry where
  counts : Counter → Nat
  sizes : Histogram → Distribution

namespace Registry

def empty : Registry := ⟨fun _ => 0, fun _ => .empty⟩

/-- Takes up one signal. Log events do not count. -/
def take (r : Registry) : Signal → Registry
  | .event _ => r
  | .count c =>
    let total := r.counts c + 1
    { r with counts := fun other => if other = c then total else r.counts other }
  | .sample h size =>
    let grown := (r.sizes h).record size
    { r with sizes := fun other => if other = h then grown else r.sizes other }

def takeAll (r : Registry) (signals : List Signal) : Registry :=
  signals.foldl take r

end Registry

end MetricCatalog.Exporter
