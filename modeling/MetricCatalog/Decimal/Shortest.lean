/-!
# Shortest decimals

A binary number stands for all reals that round to it: those between the midpoints to its two
neighbours, the midpoints included when its significand is even. Among the decimals in that
interval the shortest is the one with the fewest digits, and of those the one nearest the number.
All comparisons are between natural numbers.
-/

namespace MetricCatalog.Decimal

/-- Which of two decimals at the same distance is taken. -/
inductive Tie where
  | toEven
  | away
  deriving DecidableEq, Repr

/-- A positive binary number: `significand * 2 ^ exponent`. -/
structure Binary where
  significand : Nat
  exponent : Int
  /-- Whether the neighbour below is half as far away as the one above. -/
  closeBelow : Bool
  deriving DecidableEq, Repr

/-- A decimal number: `digits * 10 ^ exponent`. -/
structure Scaled where
  digits : Nat
  exponent : Int
  deriving DecidableEq, Repr

namespace Binary

/-- The number a finite nonzero float holds, without its sign. -/
def ofBits (bits : UInt64) : Binary :=
  let exponent := (bits >>> 52 &&& 0x7FF).toNat
  let fraction := (bits &&& 0xFFFFFFFFFFFFF).toNat
  if exponent = 0 then ⟨fraction, -1074, false⟩
  else ⟨0x10000000000000 + fraction, (exponent : Int) - 1075, fraction = 0 && 1 < exponent⟩

/-- How many places after the point the first nonzero digit of a quotient below one stands. -/
def leadingPlace (numerator denominator : Nat) : Nat :=
  if numerator = 0 ∨ denominator ≤ numerator then 0
  else leadingPlace (numerator * 10) denominator + 1
termination_by denominator - numerator
decreasing_by omega

/-- The exponent of the number's first decimal digit. -/
def leadingExponent (b : Binary) : Int :=
  let whole :=
    if 0 ≤ b.exponent then b.significand <<< b.exponent.toNat
    else b.significand >>> (-b.exponent).toNat
  if 0 < whole then (Nat.toDigits 10 whole).length - 1
  else -(leadingPlace b.significand (1 <<< (-b.exponent).toNat) : Int)

/-- The multiple of `10 ^ place` that rounds to the number and is nearest to it, if there is one.
Of all multiples only the two around the number come into question. -/
def onGrid (b : Binary) (tie : Tie) (place : Int) : Option Nat :=
  -- Everything is counted in units of a quarter of the significand's last bit.
  let unit := Nat.pow 10 (-place).toNat <<< (b.exponent - 2).toNat
  let step := Nat.pow 10 place.toNat <<< (2 - b.exponent).toNat
  let value := 4 * b.significand * unit
  let low := (4 * b.significand - if b.closeBelow then 1 else 2) * unit
  let high := (4 * b.significand + 2) * unit
  let rounds (n : Nat) : Bool :=
    if b.significand % 2 = 0 then low ≤ n * step && n * step ≤ high
    else low < n * step && n * step < high
  let below := value / step
  let above := below + 1
  match rounds below, rounds above with
  | false, false => none
  | true, false => some below
  | false, true => some above
  | true, true =>
    match compare (value - below * step) (above * step - value), tie with
    | .lt, _ => some below
    | .gt, _ => some above
    | .eq, .toEven => some (if below % 2 = 0 then below else above)
    | .eq, .away => some above

end Binary

/-- Drops zeros at the end of the digits. -/
def Scaled.trim (d : Scaled) : Scaled :=
  if d.digits = 0 ∨ d.digits % 10 ≠ 0 then d
  else Scaled.trim ⟨d.digits / 10, d.exponent + 1⟩
termination_by d.digits
decreasing_by omega

/-- The shortest decimal that rounds to the number. Seventeen digits always suffice. -/
def Binary.shortest (b : Binary) (tie : Tie) : Scaled :=
  let lead := b.leadingExponent
  let candidates := (List.range 17).filterMap fun (more : Nat) =>
    (b.onGrid tie (lead - more)).map fun digits => (⟨digits, lead - more⟩ : Scaled)
  (candidates.headD ⟨0, 0⟩).trim

end MetricCatalog.Decimal
