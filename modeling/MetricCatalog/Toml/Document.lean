import MetricCatalog.Toml.Value

/-!
# TOML documents

A document is a sequence of statements, each on a line of its own: assignments, which go into the
table opened last, and headers, which open a table or a further table of a list.
-/

namespace MetricCatalog.Toml

open Text (skipBlanks)

/-- A name in brackets that opens a table. -/
structure Header where
  path : List Key
  key : Key
  /-- Whether the table is one of a list, opened by double brackets. -/
  isElement : Bool
  span : Span

/-- A header with the assignments that follow it. -/
structure Section where
  header : Header
  assignments : List Assignment

/-- A document's assignments before the first header, and its sections. -/
structure Document where
  top : List Assignment
  sections : List Section

/-- Reads a header up to its closing brackets. -/
def readHeader (s : List Char) : Option (Header × List Char) :=
  match s with
  | '[' :: '[' :: rest => do
    let (path, key, rest) ← readPath depthLimit rest
    let rest ← takeChar ']' rest
    let rest ← takeChar ']' rest
    return (⟨path, key, true, .between s rest⟩, rest)
  | '[' :: rest => do
    let (path, key, rest) ← readPath depthLimit rest
    let rest ← takeChar ']' rest
    return (⟨path, key, false, .between s rest⟩, rest)
  | _ => none

/-- Puts an assignment before those at the top of a document. -/
def Document.addAssignment (a : Assignment) (d : Document) : Document :=
  { d with top := a :: d.top }

/-- Puts a header before a document, whose top thereby belongs to the header. -/
def Document.addHeader (h : Header) (d : Document) : Document :=
  ⟨[], ⟨h, d.top⟩ :: d.sections⟩

/-- Reads statements to the end of the text, at most so many lines. -/
def readStatements : Nat → List Char → Option Document
  | 0, _ => none
  | more + 1, s =>
    match skipBlanks whitespace s with
    | [] => some ⟨[], []⟩
    | '[' :: rest => do
      let (header, rest) ← readHeader ('[' :: rest)
      let rest ← takeLineEnd rest
      return (← readStatements more rest).addHeader header
    | c :: rest =>
      if c = '#' ∨ c = '\n' ∨ c = '\r' then do
        let rest ← takeLineEnd (c :: rest)
        readStatements more rest
      else do
        let (assignment, rest) ← readAssignment (readValue depthLimit) (c :: rest)
        let rest ← takeLineEnd rest
        return (← readStatements more rest).addAssignment assignment

/-- A mark for the order of bytes may stand before the text. -/
def skipByteOrderMark : List Char → List Char
  | '\ufeff' :: rest => rest
  | s => s

/-- A section is pointed at by its header, up to the end of its last value. -/
def Section.label (s : Section) : Label :=
  let stop := (s.assignments.getLast?.map fun a => a.span.stop).getD s.header.span.stop
  ⟨s.header.key.name, s.header.span.start, stop⟩

/-- Adds a section to the document's table. -/
def Section.apply (s : Section) (entries : Entries) : Option Entries :=
  let openAt := if s.header.isElement then Entries.openElement else Entries.openTable
  entries.descend s.header.path (openAt s.label (applyAll s.assignments))

/-- The table a document stands for. -/
def Document.table (d : Document) : Option Entries := do
  d.sections.foldlM (fun entries s => s.apply entries) (← applyAll d.top [])

/-- The table that a text stands for, if it is a TOML document. -/
def parse (text : String) : Option Entries := do
  let s := skipByteOrderMark text.toList
  (← readStatements (s.length + 1) s).table

end MetricCatalog.Toml
