import MetricCatalog.Toml.Lexeme

/-!
# Numbers of a TOML text

Integers have 64 bits with a sign and are decimal, or hexadecimal, octal or binary after a mark
and without a sign. Floats have a fraction, an exponent or both, or are infinite or no number.
Single underscores may stand between digits.
-/

namespace MetricCatalog.Toml

/-- A number by value. -/
inductive Number where
  | integer (value : Int)
  | float (value : Float)
  deriving Repr

/-- Splits off a sign; whether it is a minus. -/
def splitSign : List Char → Option Bool × List Char
  | '+' :: rest => (some false, rest)
  | '-' :: rest => (some true, rest)
  | rest => (none, rest)

/-- Reads further digits after a first one. An underscore must stand between two digits. -/
def readMoreDigits (isDigit : Char → Bool) : List Char → Option (List Char × List Char)
  | '_' :: d :: rest =>
    if isDigit d then (readMoreDigits isDigit rest).map fun (ds, rest) => (d :: ds, rest) else none
  | '_' :: [] => none
  | d :: rest =>
    if isDigit d then (readMoreDigits isDigit rest).map fun (ds, rest) => (d :: ds, rest)
    else some ([], d :: rest)
  | [] => some ([], [])

/-- Reads digits, at least one; underscores are left out of the result. -/
def readDigits (isDigit : Char → Bool) : List Char → Option (List Char × List Char)
  | d :: rest =>
    if isDigit d then (readMoreDigits isDigit rest).map fun (ds, rest) => (d :: ds, rest) else none
  | [] => none

/-- Reads the digits before the point. A leading zero stands alone. -/
def readWhole : List Char → Option (List Char × List Char)
  | '0' :: rest => some (['0'], rest)
  | s => readDigits Char.isDigit s

def readFraction : List Char → Option (List Char × List Char)
  | '.' :: rest => readDigits Char.isDigit rest
  | s => some ([], s)

/-- Reads an exponent, if there is one. -/
def readExponent : List Char → Option (Option Int × List Char)
  | c :: rest =>
    if c = 'e' ∨ c = 'E' then do
      let (sign, rest) := splitSign rest
      let (digits, rest) ← readDigits Char.isDigit rest
      let size : Int := Text.digitsValue 10 digits
      return (some (if sign = some true then -size else size), rest)
    else some (none, c :: rest)
  | [] => some (none, [])

/-- The float nearest to `significand * 10 ^ exponent`. Past the exponents of floats the result is
infinite or zero and need not be computed. -/
def nearestFloat (significand : Nat) (exponent : Int) : Float :=
  let lead := exponent + (Nat.toDigits 10 significand).length
  if significand = 0 ∨ lead < -400 then 0
  else if 400 < lead then 1 / 0
  else .ofScientific significand (exponent < 0) exponent.natAbs

def withSign (sign : Option Bool) (x : Float) : Float := if sign = some true then -x else x

/-- The integers of 64 bits. -/
def fits (n : Int) : Bool := Int64.minValue.toInt ≤ n && n ≤ Int64.maxValue.toInt

/-- The number after a sign, written with decimal digits. A positive float must be finite. -/
def readDecimal (sign : Option Bool) (s : List Char) : Option (Number × List Char) := do
  let (whole, afterWhole) ← readWhole s
  let (fraction, afterFraction) ← readFraction afterWhole
  let (exponent, rest) ← readExponent afterFraction
  if fraction = [] ∧ exponent = none then
    let size : Int := Text.digitsValue 10 whole
    let value := if sign = some true then -size else size
    if fits value then return (.integer value, rest) else none
  else
    let significand := Text.digitsValue 10 (whole ++ fraction)
    let x := withSign sign (nearestFloat significand (exponent.getD 0 - fraction.length))
    if x.isInf ∧ sign ≠ some true then none else return (.float x, rest)

/-- Reads the digits of an integer in another base than ten. -/
def readBased (base : Nat) (s : List Char) : Option (Number × List Char) := do
  let (digits, rest) ← readDigits (fun c => (Text.hexValue? c).any (· < base)) s
  let value : Int := Text.digitsValue base digits
  if fits value then return (.integer value, rest) else none

/-- Reads a number of any kind. -/
def readNumber (s : List Char) : Option (Number × List Char) :=
  match s with
  | '0' :: 'x' :: rest => readBased 16 rest
  | '0' :: 'o' :: rest => readBased 8 rest
  | '0' :: 'b' :: rest => readBased 2 rest
  | _ =>
    let (sign, rest) := splitSign s
    match rest with
    | 'i' :: 'n' :: 'f' :: rest => some (.float (withSign sign (1 / 0)), rest)
    | 'n' :: 'a' :: 'n' :: rest => some (.float (0 / 0), rest)
    | _ => readDecimal sign rest

end MetricCatalog.Toml
