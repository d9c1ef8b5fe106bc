import MetricCatalog.Exporter.Config
import MetricCatalog.Proofs.Toml.Grammar

/-!
# The grammar of configurations

Which TOML documents state a configuration. The labels stand in a table of their own at the end of
the document, between braces on one line, or each on a line under a dotted key; other keys may stand
on the lines before any header. The order of lines and labels says nothing.
-/

namespace MetricCatalog.Exporter.Config

open Toml

/-- What a line before any header states. -/
inductive Entry where
  | enabled (value : Bool)
  /-- All labels at once, between braces. -/
  | labels (list : List (String × String))
  /-- One label, under a dotted key. -/
  | label (label : String × String)
  /-- Something that is not looked at. -/
  | other (name : String) (value : Scalar)

/-- A label's name after these others, and its value. -/
def LabelText (path : List String) (s : List Char) (label : String × String) (rest : List Char) :
    Prop :=
  AssignmentText StringText s (path ++ [label.1]) label.2 rest

namespace Entry

def Text : List Char → Entry → List Char → Prop
  | s, enabled value, rest => AssignmentText ScalarText s ["enabled"] (.boolean value) rest
  | s, labels list, rest => AssignmentText (TableText (LabelText [])) s ["global_labels"] list rest
  | s, label pair, rest => LabelText ["global_labels"] s pair rest
  | s, other name value, rest =>
    name ≠ "enabled" ∧ name ≠ "global_labels" ∧ AssignmentText ScalarText s [name] value rest

/-- The first name of the line's key. -/
def name : Entry → String
  | enabled _ => "enabled"
  | labels _ => "global_labels"
  | label _ => "global_labels"
  | other name _ => name

def enabled? : Entry → Option Bool
  | enabled value => some value
  | _ => none

/-- The labels that the line states. -/
def stated : Entry → List (String × String)
  | labels list => list
  | label pair => [pair]
  | _ => []

/-- Lines of one document have different names, but for labels of different names. -/
def Compatible (e f : Entry) : Prop :=
  e.name = f.name → ∃ l m, e = label l ∧ f = label m ∧ l.1 ≠ m.1

end Entry

/-- The text states the configuration: by lines alone, which may or may not state labels, or by
lines that state none and a table of labels after them. What is not stated takes its default. -/
inductive States : List Char → Config → Prop
  | lines {text : List Char} {entries : List Entry} {labels : NameMap String}
      (lines : Lines Entry.Text text entries [])
      (compatible : entries.Pairwise Entry.Compatible)
      (all : (entries.flatMap Entry.stated).Perm labels.entries) :
      States text ⟨(entries.findSome? Entry.enabled?).getD true, labels⟩
  | table {text t u v : List Char} {entries : List Entry} {list : List (String × String)}
      {labels : NameMap String}
      (lines : Lines Entry.Text text entries t)
      (compatible : entries.Pairwise Entry.Compatible)
      (none : ∀ e ∈ entries, e.name ≠ "global_labels")
      (header : HeaderText t ["global_labels"] u) (ending : LineEnd u v)
      (body : Lines (LabelText []) v list []) (all : list.Perm labels.entries) :
      States text ⟨(entries.findSome? Entry.enabled?).getD true, labels⟩

end MetricCatalog.Exporter.Config
