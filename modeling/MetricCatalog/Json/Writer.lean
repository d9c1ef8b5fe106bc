/-!
# Written JSON

Values are written without blanks. In a string the quote, the backslash and the control characters
are escaped, by a letter where there is one; all other characters stand as they are.
-/

namespace MetricCatalog.Json

def writeChar (c : Char) : List Char :=
  match c with
  | '"' => ['\\', '"']
  | '\\' => ['\\', '\\']
  | '\x08' => ['\\', 'b']
  | '\t' => ['\\', 't']
  | '\n' => ['\\', 'n']
  | '\x0c' => ['\\', 'f']
  | '\r' => ['\\', 'r']
  | c =>
    if c.toNat < 0x20 then
      ['\\', 'u', '0', '0', Nat.digitChar (c.toNat / 16), Nat.digitChar (c.toNat % 16)]
    else [c]

def writeText (text : String) : List Char :=
  '"' :: text.toList.flatMap writeChar ++ ['"']

/-- Puts commas between parts. -/
def commaSeparated : List (List Char) → List Char
  | [] => []
  | [part] => part
  | part :: rest => part ++ ',' :: commaSeparated rest

def writeList (elements : List (List Char)) : List Char :=
  '[' :: commaSeparated elements ++ [']']

/-- An object with its fields in the order given. -/
def writeObject (fields : List (String × List Char)) : List Char :=
  '{' :: commaSeparated (fields.map fun (name, value) => writeText name ++ ':' :: value) ++
    ['}']

end MetricCatalog.Json
