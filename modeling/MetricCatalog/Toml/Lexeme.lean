import MetricCatalog.Text.Lexeme
import MetricCatalog.Text.Position

/-!
# Blanks, line ends and comments of a TOML text

A reader takes something off the front of a text and returns the rest, or refuses. Texts that are
not TOML are refused as a whole, so a refusal carries no reason.
-/

namespace MetricCatalog.Toml

open Text (skipBlanks)

/-- A reader of a value at the front of a text. -/
abbrev Reader (α : Type) := List Char → Option (α × List Char)

/-- A stretch of the text, by the number of bytes still unread at its start and at its end. -/
structure Span where
  start : Nat
  stop : Nat
  deriving DecidableEq, Repr

/-- The stretch between two rests of the text. -/
def Span.between (s rest : List Char) : Span :=
  ⟨Text.byteSize s, Text.byteSize rest⟩

/-- The blanks that may stand between tokens within a line. -/
abbrev whitespace : List Char := [' ', '\t']

/-- The characters that comments and strings may hold as they are: all but control characters,
of which only the tab is allowed. -/
def isPlain (c : Char) : Bool := c = '\t' || (0x20 ≤ c.toNat && c.toNat ≠ 0x7F)

/-- Takes a line end: a line feed, alone or after a carriage return. -/
def takeNewline : List Char → Option (List Char)
  | '\n' :: rest => some rest
  | '\r' :: '\n' :: rest => some rest
  | _ => none

/-- Passes over a comment, if there is one, up to the end of its line. -/
def skipComment : List Char → List Char
  | '#' :: rest => rest.dropWhile isPlain
  | s => s

/-- Takes what may stand after a statement: blanks, a comment, and the end of the line or text. -/
def takeLineEnd (s : List Char) : Option (List Char) :=
  match skipComment (skipBlanks whitespace s) with
  | [] => some []
  | rest => takeNewline rest

/-- Passes over blanks and line ends. -/
def skipLines : List Char → List Char
  | '\r' :: '\n' :: rest => skipLines rest
  | c :: rest => if whitespace.contains c || c = '\n' then skipLines rest else c :: rest
  | [] => []

/-- Passes over blanks, line ends and comments; `inComment` says whether a comment is open. -/
def skipFill (inComment : Bool) : List Char → List Char
  | '\r' :: '\n' :: rest => skipFill false rest
  | c :: rest =>
    if inComment && isPlain c then skipFill true rest
    else if whitespace.contains c || c = '\n' then skipFill false rest
    else if c = '#' then skipFill true rest
    else c :: rest
  | [] => []

theorem length_skipLines_le (s : List Char) : (skipLines s).length ≤ s.length := by
  fun_induction skipLines s <;> simp_all <;> omega

/-- Reads a number of digits, given the value of a digit and the base. -/
def readFixed (digit? : Char → Option Nat) (base : Nat) : Nat → Nat → Reader Nat
  | 0, value, s => some (value, s)
  | count + 1, value, c :: rest =>
    match digit? c with
    | some d => readFixed digit? base count (value * base + d) rest
    | none => none
  | _ + 1, _, [] => none

theorem length_readFixed_le {digit? : Char → Option Nat} {base count value n : Nat}
    {s rest : List Char} (h : readFixed digit? base count value s = some (n, rest)) :
    rest.length ≤ s.length := by
  induction count generalizing value s with
  | zero => simp_all [readFixed]
  | succ count ih =>
    cases s with
    | nil => simp [readFixed] at h
    | cons c tail =>
      simp only [readFixed] at h
      split at h
      · exact Nat.le_succ_of_le (ih h)
      · contradiction

end MetricCatalog.Toml
