import MetricCatalog.Mismatch
import MetricCatalog.Text.Position

/-!
# Faults in a JSON text

A reader stops at the first fault and says what is wrong and how much of the text was still unread
when it noticed. The place that is reported is counted from that: everything read, including the
byte that gave the fault away where the reader had to take it to see it.
-/

namespace MetricCatalog.Json

/-- What is wrong with a text. -/
inductive Problem where
  | endInValue
  | endInString
  | endInList
  | endInObject
  | colonExpected
  | listCommaExpected
  | objectCommaExpected
  | literalExpected
  | valueExpected
  | badEscape
  | badNumber
  | numberOutOfRange
  | controlCharacter
  | nameExpected
  | loneSurrogate
  | brokenSurrogatePair
  | trailingComma
  | trailingCharacters
  | wrongKind (found : Found) (expected : String)
  | wrongInteger (value : Int) (expected : String)
  | wrongLength (length : Nat) (expected : String)
  | missingField (name : String)
  | duplicateField (name : String)
  deriving Repr

/-- A problem and the number of bytes not yet taken when it was noticed. -/
structure Fault where
  problem : Problem
  unread : Nat
  deriving Repr

namespace Fault

/-- A fault noticed before anything of the rest was taken. -/
def here (problem : Problem) (rest : List Char) : Fault :=
  ⟨problem, Text.byteSize rest⟩

/-- A fault that the next byte gives away, if there is one. -/
def next (problem : Problem) (rest : List Char) : Fault :=
  ⟨problem, Text.byteSize rest - 1⟩

/-- Where in the whole text the fault was noticed. -/
def position (f : Fault) (text : List Char) : Text.Position :=
  .ofOffset text (Text.byteSize text - f.unread)

end Fault

/-- A reader takes a value off the front of a text and returns the rest. -/
abbrev Reader (α : Type) := List Char → Except Fault (α × List Char)

/-- The blanks that may stand between any two tokens. -/
abbrev whitespace : List Char := [' ', '\n', '\t', '\r']

theorem exists_of_bind_ok {α β : Type} {x : Except Fault α} {f : α → Except Fault β} {b : β}
    (h : (x >>= f) = .ok b) : ∃ a, x = .ok a ∧ f a = .ok b := by
  cases x with
  | error e => cases h
  | ok a => exact ⟨a, rfl, h⟩

theorem exists_of_map_ok {α β : Type} {x : Except Fault α} {f : α → β} {b : β}
    (h : x.map f = .ok b) : ∃ a, x = .ok a ∧ f a = b := by
  cases x with
  | error e => cases h
  | ok a => exact ⟨a, rfl, Except.ok.inj h⟩

/-- Reads the remaining letters of a word whose first letter has been seen. -/
def readLetters : List Char → List Char → Except Fault (List Char)
  | [], s => .ok s
  | _ :: _, [] => .error (.here .endInValue [])
  | letter :: letters, c :: rest =>
    if c = letter then readLetters letters rest else .error (.next .literalExpected (c :: rest))

theorem length_readLetters {letters s rest : List Char} (h : readLetters letters s = .ok rest) :
    rest.length ≤ s.length := by
  induction letters generalizing s with
  | nil => simp_all [readLetters]
  | cons letter letters ih =>
    cases s with
    | nil => simp [readLetters] at h
    | cons c tail =>
      simp only [readLetters] at h
      split at h
      · exact Nat.le_succ_of_le (ih h)
      · contradiction

end MetricCatalog.Json
