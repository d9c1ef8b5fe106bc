import MetricCatalog.Toml.Item
import MetricCatalog.Toml.Number
import MetricCatalog.Toml.Text

/-!
# Keys and values of a TOML text

A key is a name or several with points between them. A value is a scalar, a list of values between
brackets, which may run over several lines, or a table between braces, which stays on one line.
-/

namespace MetricCatalog.Toml

open Text (skipBlanks)

/-- The characters of names without quotes. -/
def isBare (c : Char) : Bool := c.isAlphanum || c = '_' || c = '-'

/-- Reads one name of a key. -/
def readKey (s : List Char) : Option (Key × List Char) :=
  match s with
  | '"' :: rest =>
    (readBasic rest).map fun (text, more) => (⟨String.ofList text, .between s more⟩, more)
  | '\'' :: rest =>
    (readLiteral rest).map fun (text, more) => (⟨String.ofList text, .between s more⟩, more)
  | _ =>
    let name := s.takeWhile isBare
    let rest := s.dropWhile isBare
    if name = [] then none else some (⟨String.ofList name, .between s rest⟩, rest)

/-- The greatest number of names in a key, and of lists and tables around a value. -/
def depthLimit : Nat := 79

/-- Reads a key of at most so many names, with the blanks around them: the names on the way, the
last one, and the rest. -/
def readPath : Nat → List Char → Option (List Key × Key × List Char)
  | 0, _ => none
  | more + 1, s => do
    let (key, s) ← readKey (skipBlanks whitespace s)
    match skipBlanks whitespace s with
    | '.' :: rest =>
      let (path, last, rest) ← readPath more rest
      return (key :: path, last, rest)
    | rest => return ([], key, rest)

/-- A value under a key. -/
structure Assignment where
  path : List Key
  key : Key
  item : Item
  span : Span

/-- Where a value is pointed at. A table made on the way has no text of its own; a value does. -/
def Assignment.label (a : Assignment) : Label := ⟨a.key.name, a.span⟩

/-- Adds the value to a table. -/
def Assignment.apply (a : Assignment) (entries : Entries) : Option Entries :=
  entries.assign a.path a.label a.item

/-- Reads a key, the sign between it and its value, and the value. -/
def readAssignment (value : Reader Item) (s : List Char) : Option (Assignment × List Char) := do
  let (path, key, s) ← readPath depthLimit s
  let s ← takeChar '=' s
  let start := skipBlanks whitespace s
  let (item, rest) ← value start
  return (⟨path, key, item, .between start rest⟩, rest)

/-- Reads the elements of a list up to its closing bracket, at most so many. After the last element
a comma may stand. -/
def readElements (value : Reader Item) : Nat → List Char → Option (List Item × List Char)
  | 0, _ => none
  | more + 1, s =>
    match skipFill false s with
    | ']' :: rest => some ([], rest)
    | s => do
      let (item, s) ← value s
      match skipFill false s with
      | ']' :: rest => return ([item], rest)
      | ',' :: rest =>
        let (items, rest) ← readElements value more rest
        return (item :: items, rest)
      | _ => none

/-- Reads the assignments between braces, at most so many. After the last one no comma may
stand. -/
def readAssignments (value : Reader Item) :
    Nat → List Char → Option (List Assignment × List Char)
  | 0, _ => none
  | more + 1, s => do
    let (assignment, s) ← readAssignment value s
    match skipBlanks whitespace s with
    | '}' :: rest => return ([assignment], rest)
    | ',' :: rest =>
      let (assignments, rest) ← readAssignments value more rest
      return (assignment :: assignments, rest)
    | _ => none

/-- Adds assignments to a table in order. -/
def applyAll (assignments : List Assignment) (entries : Entries) : Option Entries :=
  assignments.foldlM (fun entries a => a.apply entries) entries

/-- Reads a table after its opening brace. -/
def readClosedTable (value : Reader Item) (s : List Char) : Option (Item × List Char) :=
  match skipBlanks whitespace s with
  | '}' :: rest => some (.table .closed [], rest)
  | _ => do
    let (assignments, rest) ← readAssignments value s.length s
    let entries ← applyAll assignments []
    return (.table .closed entries, rest)

/-- Reads a value that holds no other. -/
def readScalar (s : List Char) : Option (Item × List Char) :=
  match s with
  | 't' :: 'r' :: 'u' :: 'e' :: rest => some (.boolean true, rest)
  | 'f' :: 'a' :: 'l' :: 's' :: 'e' :: rest => some (.boolean false, rest)
  | '"' :: _ => (readText s).map fun (text, rest) => (.string (String.ofList text), rest)
  | '\'' :: _ => (readText s).map fun (text, rest) => (.string (String.ofList text), rest)
  | _ =>
    match readMoment s with
    | some (moment, rest) => some (.moment moment, rest)
    | none =>
      (readNumber s).map fun
        | (.integer n, rest) => (.integer n, rest)
        | (.float x, rest) => (.float x, rest)

/-- Reads a value with at most so many lists and tables around its parts. -/
def readValue : Nat → List Char → Option (Item × List Char)
  | 0, s => readScalar s
  | depth + 1, s =>
    match s with
    | '[' :: rest =>
      (readElements (readValue depth) rest.length rest).map fun (items, rest) =>
        (.array items, rest)
    | '{' :: rest => readClosedTable (readValue depth) rest
    | _ => readScalar s

end MetricCatalog.Toml
