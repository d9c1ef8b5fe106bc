import MetricCatalog.Exporter.Config
import MetricCatalog.Exporter.Exposition

/-!
# The exporter

A process starts without an exporter; signals are then lost. Starting one with an enabled
configuration installs it, once for the whole process; from then on it takes up all signals and
can be asked for its totals at any time.
-/

namespace MetricCatalog

/-- The exporter of a process. -/
inductive Exporter where
  | absent
  | installed (labels : Exporter.Labels) (registry : Exporter.Registry)

namespace Exporter

/-- Why an exporter cannot be started. -/
inductive StartFailure where
  | alreadyInstalled
  deriving DecidableEq, Repr

def StartFailure.message : StartFailure → String
  | .alreadyInstalled =>
    "failed to install exporter as global recorder: attempted to set a recorder after the " ++
      "metrics system was already initialized"

/-- What starting an exporter leaves. -/
structure Start where
  exporter : Exporter
  result : Except StartFailure Unit
  signals : List Signal

/-- Starts an exporter as configured. A disabled configuration changes nothing, and a second
exporter is refused without a word in the log. -/
def start (e : Exporter) (config : Config) : Start :=
  if config.enabled then
    match e with
    | .absent =>
      ⟨.installed config.labels.entries .empty, .ok (), [.event .exporterInstalled]⟩
    | .installed .. => ⟨e, .error .alreadyInstalled, []⟩
  else ⟨e, .ok (), [.event .collectionDisabled]⟩

/-- Takes up signals in order. -/
def takeAll : Exporter → List Signal → Exporter
  | .absent, _ => .absent
  | .installed labels registry, signals => .installed labels (registry.takeAll signals)

/-- The totals at present. -/
def render : Exporter → List Block
  | .absent => []
  | .installed labels registry => exposition labels registry

end Exporter

end MetricCatalog
