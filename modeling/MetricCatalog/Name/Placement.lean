import MetricCatalog.Failure.Heading
import MetricCatalog.Name.Depth

/-!
# Placement of names around a base level

A catalog is anchored to one depth, its base level. A name of exactly that depth is a base name; a
name one separator deeper stands below a base name, its parent; names of any other depth do not
concern the catalog.
-/

namespace MetricCatalog

/-- The depth a catalog is anchored to: the number of segments in the query's leading part. -/
structure BaseLevel where
  depth : Nat
  deriving DecidableEq, Repr

namespace BaseLevel

instance : Inhabited BaseLevel := ⟨⟨0⟩⟩

instance : ToString BaseLevel := ⟨fun base => toString base.depth⟩

/-- A base level from a signed number, which must not be negative. That a level is too large for a
machine word ("out of range") cannot happen where words have 64 bits, and is no outcome here. -/
def ofSigned (level : Int64) : Except Failure BaseLevel :=
  if level < 0 then .error (.negativeBaseLevel level) else .ok ⟨level.toNatClampNeg⟩

end BaseLevel

/-- Where a name stands relative to a base level. -/
inductive Placement where
  | base
  | next (parent : String)
  | ignored
  deriving DecidableEq, Repr

/-- A placement without its data: what observations are counted by. -/
inductive Outcome where
  | base
  | nextLevel
  | ignored
  deriving DecidableEq, Repr

def Outcome.label : Outcome → String
  | .base => "base"
  | .nextLevel => "next_level"
  | .ignored => "ignored"

def Placement.outcome : Placement → Outcome
  | .base => .base
  | .next _ => .nextLevel
  | .ignored => .ignored

/-- The base-level name above a name that is one separator deeper: at base level zero the leading
segment, otherwise all but the trailing segment. -/
def BaseLevel.parent? (level : BaseLevel) (name : String) : Option String :=
  let parts :=
    if level.depth = 0 then Name.splitFirst? name.toList else Name.splitLast? name.toList
  parts.map fun (lead, _) => String.ofList lead

/-- Places a name by its depth. -/
def BaseLevel.place (level : BaseLevel) (name : String) : Placement :=
  if Name.depth name = level.depth then .base
  else if Name.depth name = level.depth + 1 then
    match level.parent? name with
    | some parent => .next parent
    | none => .ignored
  else .ignored

end MetricCatalog
