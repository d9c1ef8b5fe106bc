import MetricCatalog.Decimal.Shortest

/-!
# Written forms of floating-point numbers

A float is written by its shortest decimal. A form says which exponents are written out in full,
with a point among the digits, and which way ties between two shortest decimals go.
-/

namespace MetricCatalog.Decimal

/-- The choices left to the format in which a float is written. -/
structure Form where
  tie : Tie
  /-- Whether a number with this exponent of the leading digit is written without an exponent. -/
  positional : Int → Bool

namespace Form

/-- The float's sign bit. -/
def isNegative (x : Float) : Bool := 0x8000000000000000 ≤ x.toBits

/-- All digits around the point, at least one on each side. -/
def inPlace (digits : List Char) (exponent : Int) : List Char :=
  let lead := exponent + digits.length
  if 0 ≤ exponent then digits ++ List.replicate exponent.toNat '0' ++ ['.', '0']
  else if 0 < lead then digits.take lead.toNat ++ '.' :: digits.drop lead.toNat
  else ['0', '.'] ++ List.replicate (-lead).toNat '0' ++ digits

/-- One digit before the point, and the exponent with its sign. -/
def withExponent (digits : List Char) (lead : Int) : List Char :=
  let mantissa :=
    match digits with
    | first :: second :: others => first :: '.' :: second :: others
    | _ => digits
  mantissa ++ ['e', if lead < 0 then '-' else '+'] ++ Nat.toDigits 10 lead.natAbs

/-- The text of a float. -/
def render (form : Form) (x : Float) : String :=
  let magnitude :=
    if x.isNaN then ['N', 'a', 'N']
    else if x.isInf then ['i', 'n', 'f']
    else if x == 0 then ['0', '.', '0']
    else
      let d := (Binary.ofBits (x.toBits &&& 0x7FFFFFFFFFFFFFFF)).shortest form.tie
      let digits := Nat.toDigits 10 d.digits
      let lead := d.exponent + digits.length - 1
      if form.positional lead then inPlace digits d.exponent else withExponent digits lead
  String.ofList (if isNegative x && !x.isNaN then '-' :: magnitude else magnitude)

end Form

end MetricCatalog.Decimal
