import MetricCatalog.Decimal.Form
import MetricCatalog.Json.Fault
import MetricCatalog.Mismatch

/-!
# Wording of faults

A fault is told by its problem and by the place where it was noticed.
-/

namespace MetricCatalog.Json

/-- Floats are written in full from a hundred-thousandth up to sixteen digits before the point, and
a tie between two shortest decimals goes to the even one. -/
def decimalForm : Decimal.Form where
  tie := .toEven
  positional lead := -5 ≤ lead && lead < 16

namespace Problem

def message : Problem → String
  | .endInValue => "EOF while parsing a value"
  | .endInString => "EOF while parsing a string"
  | .endInList => "EOF while parsing a list"
  | .endInObject => "EOF while parsing an object"
  | .colonExpected => "expected `:`"
  | .listCommaExpected => "expected `,` or `]`"
  | .objectCommaExpected => "expected `,` or `\x7d`"
  | .literalExpected => "expected ident"
  | .valueExpected => "expected value"
  | .badEscape => "invalid escape"
  | .badNumber => "invalid number"
  | .numberOutOfRange => "number out of range"
  | .controlCharacter => "control character (\\u0000-\\u001F) found while parsing a string"
  | .nameExpected => "key must be a string"
  | .loneSurrogate => "lone leading surrogate in hex escape"
  | .brokenSurrogatePair => "unexpected end of hex escape"
  | .trailingComma => "trailing comma"
  | .trailingCharacters => "trailing characters"
  | .wrongKind found expected =>
    "invalid type: " ++ found.describe decimalForm.render Text.quoted ++ ", expected " ++ expected
  | .wrongInteger value expected =>
    "invalid value: " ++ (Found.integer value).describe decimalForm.render Text.quoted ++
      ", expected " ++ expected
  | .wrongLength length expected =>
    "invalid length " ++ toString length ++ ", expected " ++ expected
  | .missingField name => "missing field `" ++ name ++ "`"
  | .duplicateField name => "duplicate field `" ++ name ++ "`"

end Problem

/-- The problem and its place in the text. -/
def Fault.message (f : Fault) (text : List Char) : String :=
  let place := f.position text
  f.problem.message ++ " at line " ++ toString place.line ++ " column " ++ toString place.column

end MetricCatalog.Json
