import MetricCatalog.Tally

/-!
# Checkpoints, and sessions on a tally

A checkpoint is a value beside its last saved copy. Saving keeps the present value, restoring goes
back to the copy; at the start the copy is the value itself.

A session applies steps to a tally in order and answers each; `save` and `restore` roll the tally
back to an earlier state.
-/

namespace MetricCatalog

/-- A present value and the copy that `restore` goes back to. -/
structure Checkpoint (α : Type) where
  current : α
  saved : α

namespace Checkpoint

variable {α : Type}

def start (value : α) : Checkpoint α := ⟨value, value⟩

def save (c : Checkpoint α) : Checkpoint α := ⟨c.current, c.current⟩

def restore (c : Checkpoint α) : Checkpoint α := ⟨c.saved, c.saved⟩

/-- Changes the present value and leaves the copy alone. -/
def advance (c : Checkpoint α) (value : α) : Checkpoint α := { c with current := value }

end Checkpoint

namespace Tally

/-- One request to a tally. -/
inductive Step where
  | setOwn (name : String) (count : UInt64)
  | addChildren (name : String) (count : UInt64)
  | get (name : String)
  | save
  | restore
  deriving Repr

/-- What a step answers. -/
inductive Answer where
  | record (r : Option Record)
  | done
  deriving Repr

/-- A tally and its saved copy, both empty at the start. -/
abbrev Session := Checkpoint Tally

namespace Session

def initial : Session := .start .empty

/-- Applies one step. An update answers the record it leaves. -/
def step (s : Session) : Step → Session × Answer
  | .setOwn name count =>
    let after := s.current.setOwn name count
    (s.advance after, .record (after.find? name))
  | .addChildren name count =>
    let after := s.current.addChildren name count
    (s.advance after, .record (after.find? name))
  | .get name => (s, .record (s.current.find? name))
  | .save => (s.save, .done)
  | .restore => (s.restore, .done)

/-- The session after all steps. -/
def after (s : Session) (steps : List Step) : Session :=
  steps.foldl (fun s request => (s.step request).1) s

/-- Each step's answer with the tally it leaves. -/
def replies (s : Session) : List Step → List (Answer × Tally)
  | [] => []
  | request :: rest =>
    let (next, answer) := s.step request
    (answer, next.current) :: replies next rest

end Session

end Tally

end MetricCatalog
