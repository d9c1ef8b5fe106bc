/-!
# Places in a text

A place in a text is given by the number of UTF-8 bytes before it. For people it is named by its
line, counted from one, and by the number of bytes of that line that stand before it.

A stretch of a text is shown by an excerpt: the line on which it begins, with the line's number
before it, and carets below that mark the stretch as far as it lies on the line.
-/

namespace MetricCatalog.Text

/-- The number of bytes a text takes in UTF-8. -/
def byteSize (text : List Char) : Nat :=
  text.foldr (fun c bytes => c.utf8Size + bytes) 0

/-- A line, counted from one, and a number of bytes of that line. -/
structure Position where
  line : Nat
  column : Nat
  deriving DecidableEq, Repr

namespace Position

/-- Moves on by a number of bytes. A place inside a character counts the bytes before it. -/
def advance (p : Position) : List Char → Nat → Position
  | [], _ => p
  | c :: rest, bytes =>
    if bytes < c.utf8Size then { p with column := p.column + bytes }
    else
      let next : Position :=
        if c = '\n' then ⟨p.line + 1, 0⟩ else ⟨p.line, p.column + c.utf8Size⟩
      next.advance rest (bytes - c.utf8Size)

/-- The place after a number of bytes of a text. -/
def ofOffset (text : List Char) (bytes : Nat) : Position :=
  advance ⟨1, 0⟩ text bytes

end Position

/-- The characters within a number of bytes, and those after. -/
def splitAtByte : Nat → List Char → List Char × List Char
  | _, [] => ([], [])
  | bytes, c :: rest =>
    if bytes < c.utf8Size then ([], c :: rest)
    else
      let (before, after) := splitAtByte (bytes - c.utf8Size) rest
      (c :: before, after)

/-- The end of a text after its last line feed. -/
def lastLine (text : List Char) : List Char :=
  (text.reverse.takeWhile (· ≠ '\n')).reverse

/-- A line of a text and a stretch that begins on it. -/
structure Excerpt where
  /-- The line's number, from one. -/
  line : Nat
  /-- The number of the stretch's first character on the line, from one. -/
  column : Nat
  content : List Char
  /-- How many carets mark the stretch. -/
  width : Nat
  deriving DecidableEq, Repr

namespace Excerpt

/-- The excerpt of a stretch, given by its first byte and the byte after its last. It has a caret
for each byte, but no more than the line's bytes less the characters before the stretch, so that one
running over several lines is marked on its first only; one caret is always shown. -/
def ofStretch (text : List Char) (start stop : Nat) : Excerpt :=
  let (before, after) := splitAtByte start text
  let lead := lastLine before
  let content := lead ++ after.takeWhile (· ≠ '\n')
  { line := before.count '\n' + 1
    column := lead.length + 1
    content
    width := max 1 (min (stop - start) (byteSize content - lead.length)) }

/-- The three lines of the excerpt, each with its line end. -/
def write (e : Excerpt) : List Char :=
  let number := Nat.toDigits 10 e.line
  let margin := List.replicate (number.length + 1) ' ' ++ ['|']
  margin ++ ['\n'] ++
    number ++ [' ', '|', ' '] ++ e.content ++ ['\n'] ++
    margin ++ List.replicate e.column ' ' ++ List.replicate e.width '^' ++ ['\n']

end Excerpt

end MetricCatalog.Text
