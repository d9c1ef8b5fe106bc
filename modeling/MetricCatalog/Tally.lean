import MetricCatalog.NameMap

/-!
# Document tallies

For every base-level name, the number of documents reported for the name itself and the sum of the
numbers reported one segment below it. A name that holds more documents than its children account
for is a metric of its own, not only a prefix of longer ones.
-/

namespace MetricCatalog

/-- Document counts of one name: its own, overwritten by each report, and its children's, summed. -/
structure Record where
  own : UInt64
  children : UInt64
  deriving DecidableEq, Repr

namespace Record

def zero : Record := ⟨0, 0⟩

/-- Whether a name has documents that no child accounts for. -/
def isComplete (r : Record) : Bool :=
  r.own > 0 && r.own > r.children

/-- Adds to the children's count, which stops at the largest 64-bit number. -/
def addChildren (r : Record) (count : UInt64) : Record :=
  { r with children := .ofNatClamp (r.children.toNat + count.toNat) }

/-- The children's count is the exact sum cut off at the largest 64-bit number. -/
theorem toNat_children_addChildren (r : Record) (count : UInt64) :
    (r.addChildren count).children.toNat =
      min (r.children.toNat + count.toNat) (UInt64.size - 1) := by
  have hsize : UInt64.size = 18446744073709551616 := rfl
  simp only [addChildren, UInt64.ofNatClamp]
  split <;> rw [UInt64.toNat_ofNatLT] <;> omega

/-- Having documents at all is no further condition. -/
theorem isComplete_iff (r : Record) : r.isComplete = true ↔ r.children.toNat < r.own.toNat := by
  rw [isComplete, Bool.and_eq_true, decide_eq_true_iff, decide_eq_true_iff]
  constructor
  · rintro ⟨-, more⟩
    exact UInt64.lt_iff_toNat_lt.mp more
  · intro more
    refine ⟨UInt64.lt_iff_toNat_lt.mpr ?_, UInt64.lt_iff_toNat_lt.mpr more⟩
    exact Nat.lt_of_le_of_lt (Nat.zero_le _) more

end Record

/-- Document counts by name; a name is present once either of its counts has been reported. -/
abbrev Tally := NameMap Record

namespace Tally

/-- Reports a name's own count, in place of an earlier one. -/
def setOwn (t : Tally) (name : String) (count : UInt64) : Tally :=
  t.alter name fun r => { r.getD .zero with own := count }

/-- Reports the count of a child of a name. -/
def addChildren (t : Tally) (name : String) (count : UInt64) : Tally :=
  t.alter name fun r => (r.getD .zero).addChildren count

/-- The names that are metrics of their own, in ascending order. -/
def completeNames (t : Tally) : List String :=
  t.namesWhere Record.isComplete

theorem find?_setOwn (t : Tally) (name other : String) (count : UInt64) :
    (t.setOwn name count).find? other =
      if other = name then some { (t.find? name).getD .zero with own := count }
      else t.find? other :=
  NameMap.find?_alter ..

theorem find?_addChildren (t : Tally) (name other : String) (count : UInt64) :
    (t.addChildren name count).find? other =
      if other = name then some (((t.find? name).getD .zero).addChildren count)
      else t.find? other :=
  NameMap.find?_alter ..

end Tally

end MetricCatalog
