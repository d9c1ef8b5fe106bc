import MetricCatalog.Toml.Lexeme
import MetricCatalog.Toml.Moment

/-!
# Values and tables of TOML

A document is a table of tables. A table keeps its entries in the order in which they came, and
remembers how it came about, since that decides what may still be added to it.
-/

namespace MetricCatalog.Toml

/-- How a table came about. -/
inductive TableKind where
  /-- Opened by a header of its own. -/
  | header
  /-- Named on the way in the header of another. -/
  | implied
  /-- Named on the way in a dotted key. -/
  | dotted
  /-- Written between braces, complete. -/
  | closed
  deriving DecidableEq, Repr

/-- The name of an entry, with the stretch of text to point at when its value is wrong: the value
itself, or the name where the value has no text of its own. -/
structure Label where
  name : String
  place : Span
  deriving DecidableEq, Repr

/-- A value. -/
inductive Item where
  | string (value : String)
  | integer (value : Int)
  | float (value : Float)
  | boolean (value : Bool)
  | moment (value : Moment)
  | array (elements : List Item)
  | table (kind : TableKind) (entries : List (Label × Item))
  /-- Tables opened one after another by headers in double brackets. -/
  | tables (list : List (List (Label × Item)))

/-- The entries of a table. -/
abbrev Entries := List (Label × Item)

/-- A part of a key, with its stretch of text. -/
structure Key where
  name : String
  span : Span
  deriving DecidableEq, Repr

def Key.label (key : Key) : Label := ⟨key.name, key.span⟩

namespace Entries

/-- Changes the entry of a name, or adds `absent` at the end if there is none. -/
def alter (name : String) (present : Label → Item → Option (Label × Item))
    (absent : Option (Label × Item)) : Entries → Option Entries
  | [] => absent.map ([·])
  | (label, item) :: rest =>
    if label.name = name then (present label item).map (· :: rest)
    else (alter name present absent rest).map ((label, item) :: ·)

/-- The item of a name. -/
def find? (name : String) (entries : Entries) : Option Item :=
  (List.find? (fun entry => entry.1.name = name) entries).map Prod.snd

/-- Adds an entry with a new name at the end. -/
def addNew (label : Label) (item : Item) (entries : Entries) : Option Entries :=
  if (entries.find? label.name).isSome then none else some (entries ++ [(label, item)])

/-- Changes the last of a list of tables. -/
def alterLast (f : Entries → Option Entries) : List Entries → Option (List Entries)
  | [] => none
  | [last] => (f last).map ([·])
  | first :: rest => (alterLast f rest).map (first :: ·)

/-- Adds an entry under a dotted key. The tables on the way must be open to dotted keys, and the
one that takes the entry must have come from dotted keys itself, or be the one we start from. -/
def assign : List Key → Label → Item → Entries → Option Entries
  | [], label, item, entries => entries.addNew label item
  | key :: path, label, item, entries =>
    entries.alter key.name
      (fun present found =>
        match found with
        | .table .dotted inner =>
          (assign path label item inner).map fun inner => (present, .table .dotted inner)
        | .table .implied inner =>
          if path = [] then none
          else (assign path label item inner).map fun inner => (present, .table .implied inner)
        | .tables list =>
          if path = [] then none
          else (alterLast (assign path label item) list).map fun list => (present, .tables list)
        | _ => none)
      ((assign path label item []).map fun inner => (key.label, .table .dotted inner))

/-- Goes down the path of a header and works on the table at its end. -/
def descend : List Key → (Entries → Option Entries) → Entries → Option Entries
  | [], work, entries => work entries
  | key :: path, work, entries =>
    entries.alter key.name
      (fun present found =>
        match found with
        | .table .closed _ => none
        | .table kind inner =>
          (descend path work inner).map fun inner => (present, .table kind inner)
        | .tables list =>
          (alterLast (descend path work) list).map fun list => (present, .tables list)
        | _ => none)
      ((descend path work []).map fun inner => (key.label, .table .implied inner))

/-- Opens a table by its header and fills it. A table that was only implied so far keeps what it
has and moves to the end. -/
def openTable (label : Label) (fill : Entries → Option Entries) (entries : Entries) :
    Option Entries :=
  match entries.find? label.name with
  | none => (fill []).map fun body => entries ++ [(label, .table .header body)]
  | some (.table .implied inner) =>
    (fill inner).map fun body =>
      entries.filter (fun entry => entry.1.name ≠ label.name) ++ [(label, .table .header body)]
  | some _ => none

/-- Opens a further table of a list of tables and fills it. -/
def openElement (label : Label) (fill : Entries → Option Entries) (entries : Entries) :
    Option Entries :=
  entries.alter label.name
    (fun present found =>
      match found with
      | .tables list =>
        (fill []).map fun body =>
          (⟨present.name, present.place.start, label.place.stop⟩, .tables (list ++ [body]))
      | _ => none)
    ((fill []).map fun body => (label, .tables [body]))

end Entries

end MetricCatalog.Toml
