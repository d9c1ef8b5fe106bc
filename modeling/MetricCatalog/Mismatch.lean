import MetricCatalog.Text.Hidden

/-!
# Values of the wrong kind

A reader that wants one kind of value and finds another says what it found and what it wanted.
Strings stand between quotes, with everything in them to be seen: quotes and backslashes get a
backslash, hidden characters are spelled out, all others stand as they are. How numbers are written
is the business of the format that is read.
-/

namespace MetricCatalog

namespace Text

/-- A character's code point in braces after a backslash and a `u`. -/
def spelledOut (c : Char) : List Char :=
  ['\\', 'u', '{'] ++ Nat.toDigits 16 c.toNat ++ ['}']

def quoteChar (c : Char) : List Char :=
  match c with
  | '"' => ['\\', '"']
  | '\\' => ['\\', '\\']
  | '\x00' => ['\\', '0']
  | '\t' => ['\\', 't']
  | '\n' => ['\\', 'n']
  | '\r' => ['\\', 'r']
  | c => if isHidden c then spelledOut c else [c]

/-- The text between quotes. -/
def quoted (text : String) : String :=
  String.ofList ('"' :: text.toList.flatMap quoteChar ++ ['"'])

end Text

/-- A value as it is named in a complaint: scalars with their value, containers by kind. -/
inductive Found where
  | null
  | boolean (value : Bool)
  | integer (value : Int)
  | decimal (value : Float)
  | string (value : String)
  | sequence
  | map
  deriving Repr

namespace Found

def describe (showDecimal : Float → String) (quote : String → String) : Found → String
  | .null => "null"
  | .boolean value => "boolean `" ++ toString value ++ "`"
  | .integer value => "integer `" ++ toString value ++ "`"
  | .decimal value => "floating point `" ++ showDecimal value ++ "`"
  | .string value => "string " ++ quote value
  | .sequence => "sequence"
  | .map => "map"

end Found

end MetricCatalog
