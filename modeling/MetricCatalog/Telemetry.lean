import MetricCatalog.Name.Placement

/-!
# Telemetry

What a catalog tells about its work while it works: log events, increments of counters, and
samples of the sizes of its result sets. An operation returns its signals in the order in which
they arise; the log, the counters and the samples are views of that list.
-/

namespace MetricCatalog

/-! Names under which metrics and their labels are published. -/

namespace Metric

def observations : String := "strata_discovery_observations_total"

def rejections : String := "strata_discovery_observations_rejected_total"

def completeNames : String := "strata_discovery_complete_names"

def nextLevelNames : String := "strata_discovery_next_level_names"

/-- Labels an observation by its placement. -/
def outcomeLabel : String := "outcome"

/-- Labels a rejection by its reason. -/
def reasonLabel : String := "reason"

/-- Upper limits of the size classes that result sets are sorted into. -/
def sizeLimits : List Nat := [1, 5, 10, 25, 50, 100, 250, 500, 1000, 5000, 10000]

end Metric

/-- A count that only grows. -/
inductive Counter where
  | observations (outcome : Outcome)
  | rejections (reason : Reason)
  deriving DecidableEq, Repr

namespace Counter

def metric : Counter → String
  | .observations _ => Metric.observations
  | .rejections _ => Metric.rejections

/-- The counter's own label: its name and value. -/
def label : Counter → String × String
  | .observations outcome => (Metric.outcomeLabel, outcome.label)
  | .rejections reason => (Metric.reasonLabel, reason.label)

end Counter

/-- A distribution of result-set sizes. -/
inductive Histogram where
  | nextLevelNames
  | completeNames
  deriving DecidableEq, Repr

def Histogram.metric : Histogram → String
  | .nextLevelNames => Metric.nextLevelNames
  | .completeNames => Metric.completeNames

inductive Severity where
  | trace
  | debug
  | info
  | warn
  deriving DecidableEq, Repr

def Severity.label : Severity → String
  | .trace => "TRACE"
  | .debug => "DEBUG"
  | .info => "INFO"
  | .warn => "WARN"

/-- The value of a field of a log event. -/
inductive FieldValue where
  | text (value : String)
  | number (value : Int)
  deriving DecidableEq, Repr

/-- Something worth a line in the log. -/
inductive Event where
  | rejected (index : String) (count : Int64) (failure : Failure)
  | placed (index : String) (count : Int64) (level : BaseLevel) (outcome : Outcome)
  | completeNamesDerived (level : BaseLevel) (tracked complete : Nat)
  | responseCataloged (level : BaseLevel) (buckets : Nat)
  | collectionDisabled
  | exporterInstalled
  deriving DecidableEq, Repr

namespace Event

def severity : Event → Severity
  | .rejected .. => .warn
  | .placed .. => .trace
  | .completeNamesDerived .. => .debug
  | .responseCataloged .. => .debug
  | .collectionDisabled => .info
  | .exporterInstalled => .info

def message : Event → String
  | .rejected .. => "rejecting metric index observation"
  | .placed .. => "classified metric index"
  | .completeNamesDerived .. => "derived complete metric names"
  | .responseCataloged .. => "classified terms aggregation"
  | .collectionDisabled => "Metrics collection is disabled"
  | .exporterInstalled => "Prometheus metrics exporter initialized"

/-- The event's data. A base level is told as text, all counts as numbers. -/
def fields : Event → List (String × FieldValue)
  | .rejected index count failure =>
    [("index", .text index), ("doc_count", .number count.toInt), ("error", .text failure.message)]
  | .placed index count level outcome =>
    [("index", .text index), ("doc_count", .number count.toInt),
      ("base_level", .text (toString level)), ("level", .text outcome.label)]
  | .completeNamesDerived level tracked complete =>
    [("base_level", .text (toString level)), ("tracked", .number tracked),
      ("complete", .number complete)]
  | .responseCataloged level buckets =>
    [("base_level", .text (toString level)), ("buckets", .number buckets)]
  | .collectionDisabled => []
  | .exporterInstalled => []

end Event

/-- One thing told by an operation. -/
inductive Signal where
  | event (e : Event)
  | count (c : Counter)
  | sample (h : Histogram) (size : Nat)
  deriving DecidableEq, Repr

namespace Telemetry

/-- The events, in order. -/
def log (signals : List Signal) : List Event :=
  signals.filterMap fun
    | .event e => some e
    | _ => none

/-- How often a counter was incremented. -/
def total (signals : List Signal) (c : Counter) : Nat :=
  signals.count (.count c)

/-- The sizes a histogram was given, in order. -/
def samples (signals : List Signal) (h : Histogram) : List Nat :=
  signals.filterMap fun
    | .sample other size => if other = h then some size else none
    | _ => none

end Telemetry

end MetricCatalog
