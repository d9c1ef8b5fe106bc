import MetricCatalog.Decimal.Form
import MetricCatalog.Mismatch
import MetricCatalog.NameMap
import MetricCatalog.Text.Position
import MetricCatalog.Toml.Document

/-!
# Configuration of the exporter

A configuration says whether metrics are collected, and which labels every metric gets. It is read
from a TOML document; what the document does not say takes its default, and what it says beyond is
not looked at. The first value of a wrong kind, in the order of the document's table, is reported
with an excerpt of the document.
-/

namespace MetricCatalog.Exporter

/-- Whether metrics are collected, and the labels of every metric. -/
structure Config where
  enabled : Bool
  labels : NameMap String

namespace Config

/-- The configuration of a document that says nothing. -/
def standard : Config := ⟨true, .empty⟩

instance : Inhabited Config := ⟨standard⟩

def enabledKey : String := "enabled"

def labelsKey : String := "global_labels"

/-- The name under which a moment shows itself as a table with one entry. -/
def momentKey : String := "$__toml_private_datetime"

/-- A value of the wrong kind and its place in the document. -/
structure Complaint where
  found : Found
  expected : String
  place : Toml.Span
  deriving Repr

/-- Why a text is no configuration. -/
inductive Fault where
  | malformed
  | wrongKind (complaint : Complaint)
  deriving Repr

/-- A value as complaints name it. -/
def found : Toml.Item → Found
  | .string value => .string value
  | .integer value => .integer value
  | .float value => .decimal value
  | .boolean value => .boolean value
  | .moment _ => .map
  | .array _ => .sequence
  | .table .. => .map
  | .tables _ => .sequence

/-- Takes a label from an entry of the labels' table. -/
def readLabel (labels : NameMap String) (entry : Toml.Label × Toml.Item) :
    Except Complaint (NameMap String) :=
  match entry.2 with
  | .string value => .ok (labels.insert entry.1.name value)
  | item => .error ⟨found item, "a string", entry.1.place⟩

/-- The labels that a value stands for. -/
def readLabels (place : Toml.Span) : Toml.Item → Except Complaint (NameMap String)
  | .table _ entries => entries.foldlM readLabel .empty
  | .moment value => .ok (NameMap.empty.insert momentKey (String.ofList value.write))
  | item => .error ⟨found item, "a map", place⟩

/-- Takes an entry of the document's table into the configuration. -/
def readEntry (config : Config) (entry : Toml.Label × Toml.Item) : Except Complaint Config :=
  if entry.1.name = enabledKey then
    match entry.2 with
    | .boolean value => .ok { config with enabled := value }
    | item => .error ⟨found item, "a boolean", entry.1.place⟩
  else if entry.1.name = labelsKey then
    (readLabels entry.1.place entry.2).map fun labels => { config with labels }
  else .ok config

/-- The configuration a document's table states. -/
def ofEntries (entries : Toml.Entries) : Except Complaint Config :=
  entries.foldlM readEntry standard

/-- The configuration a text states. -/
def ofText (text : String) : Except Fault Config :=
  match Toml.parse text with
  | none => .error .malformed
  | some entries => (ofEntries entries).mapError .wrongKind

/-- Floats are written in full, and a tie between two shortest decimals goes away from zero. -/
def decimalForm : Decimal.Form where
  tie := .away
  positional _ := true

/-- The complaint with an excerpt of the document it is about. -/
def Complaint.report (c : Complaint) (text : String) : String :=
  let chars := text.toList
  let size := Text.byteSize chars
  let excerpt := Text.Excerpt.ofStretch chars (size - c.place.start) (size - c.place.stop)
  "invalid metrics config: TOML parse error at line " ++ toString excerpt.line ++ ", column " ++
    toString excerpt.column ++ "\n" ++ String.ofList excerpt.write ++
    "invalid type: " ++ c.found.describe decimalForm.render Text.quoted ++
    ", expected " ++ c.expected ++ "\n"

end Config

end MetricCatalog.Exporter
