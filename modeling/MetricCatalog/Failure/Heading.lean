/-!
# Failures and their headings

What can go wrong while a response is cataloged. A failure is a cause with its data; `message` is
its wording and `reason` the short word under which it is counted.

A heading says what was being done when something failed. It is an action of any monad, and it
runs only on the failing branch: a heading that is costly to make costs nothing on success.
-/

namespace MetricCatalog

/-- Why an observation, a base level or a response is refused. -/
inductive Failure where
  | negativeBaseLevel (baseLevel : Int64)
  | emptyIndex
  | negativeCount (index : String) (count : Int64)
  | described (text : String)
  deriving DecidableEq, Repr

/-- The kind of a failure, without its data. -/
inductive Reason where
  | negativeBaseLevel
  | emptyIndex
  | negativeCount
  | described
  deriving DecidableEq, Repr

/-- The word a reason is counted under. -/
def Reason.label : Reason → String
  | .negativeBaseLevel => "negative_base_level"
  | .emptyIndex => "empty_index"
  | .negativeCount => "negative_doc_count"
  | .described => "message"

namespace Failure

def reason : Failure → Reason
  | .negativeBaseLevel _ => .negativeBaseLevel
  | .emptyIndex => .emptyIndex
  | .negativeCount .. => .negativeCount
  | .described _ => .described

def message : Failure → String
  | .negativeBaseLevel level => "base level must not be negative, got " ++ toString level
  | .emptyIndex => "metric index must not be empty"
  | .negativeCount index count =>
    "doc count for " ++ index ++ " must not be negative, got " ++ toString count
  | .described text => text

end Failure

namespace Heading

variable {m : Type → Type} [Monad m] {α : Type}

/-- Puts a heading and a colon in front of a failure's text. -/
def attach (heading : m String) : Except String α → m (Except Failure α)
  | .ok value => pure (.ok value)
  | .error text => do
    let words ← heading
    return .error (.described (words ++ ": " ++ text))

/-- A missing value is a failure whose whole text is the heading. -/
def require (heading : m String) : Option α → m (Except Failure α)
  | some value => pure (.ok value)
  | none => do
    let words ← heading
    return .error (.described words)

end Heading

end MetricCatalog
