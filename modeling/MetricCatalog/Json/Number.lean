import MetricCatalog.Json.Fault
import MetricCatalog.Text.Lexeme

/-!
# Numbers in a JSON text

A number is first cut into its parts by grammar alone; a number that is skipped needs no more. A
number that is wanted is an integer if it has neither a fraction nor an exponent and fits 64 bits;
otherwise it is a decimal. A decimal's digits go into a 64-bit significand, the rest into a power
of ten, and the two are multiplied or divided in floating point.
-/

namespace MetricCatalog.Json

/-- The text of a number, cut into its parts. -/
structure Numeral where
  negative : Bool
  whole : List Char
  fraction : Option (List Char)
  /-- Whether the exponent is negative, and its digits. -/
  exponent : Option (Bool × List Char)
  deriving DecidableEq, Repr

/-- A number by value. -/
inductive Number where
  | integer (value : Int)
  | decimal (value : Float)
  deriving Repr

namespace Numeral

/-- The complaint about a digit that is missing; at the end of the text it is `atEnd`. -/
def digitMissing (atEnd : Problem) : List Char → Fault
  | [] => .here atEnd []
  | rest => .next .badNumber rest

/-- Reads one digit or more. -/
def readDigits (atEnd : Problem) (s : List Char) : Except Fault (List Char × List Char) :=
  let digits := s.takeWhile Char.isDigit
  if digits = [] then .error (digitMissing atEnd s)
  else .ok (digits, s.dropWhile Char.isDigit)

/-- Reads the digits before the point. A leading zero stands alone. -/
def readWhole (atEnd : Problem) (s : List Char) : Except Fault (List Char × List Char) :=
  match s with
  | '0' :: rest =>
    if (rest.head?.any Char.isDigit) then .error (.next .badNumber rest) else .ok (['0'], rest)
  | _ => readDigits atEnd s

def readFraction (atEnd : Problem) (s : List Char) :
    Except Fault (Option (List Char) × List Char) :=
  match s with
  | '.' :: rest => (readDigits atEnd rest).map fun (digits, rest) => (some digits, rest)
  | _ => .ok (none, s)

/-- Splits off a sign; without one a number is not negative. -/
def splitSign : List Char → Bool × List Char
  | '+' :: rest => (false, rest)
  | '-' :: rest => (true, rest)
  | rest => (false, rest)

def readExponent (atEnd : Problem) (s : List Char) :
    Except Fault (Option (Bool × List Char) × List Char) :=
  match s with
  | c :: rest =>
    if c = 'e' ∨ c = 'E' then
      let sign := splitSign rest
      (readDigits atEnd sign.2).map fun (digits, rest) => (some (sign.1, digits), rest)
    else .ok (none, s)
  | [] => .ok (none, s)

/-- Splits off a minus sign. -/
def splitMinus : List Char → Bool × List Char
  | '-' :: rest => (true, rest)
  | rest => (false, rest)

/-- Reads a number by grammar. -/
def read (atEnd : Problem) (s : List Char) : Except Fault (Numeral × List Char) := do
  let sign := splitMinus s
  let (whole, s) ← readWhole atEnd sign.2
  let (fraction, s) ← readFraction atEnd s
  let (exponent, s) ← readExponent atEnd s
  return (⟨sign.1, whole, fraction, exponent⟩, s)

/-- Takes digits into a significand as long as it fits 64 bits, and gives those left over. -/
def absorb (significand : Nat) : List Char → Nat × List Char
  | [] => (significand, [])
  | d :: digits =>
    let more := significand * 10 + Text.digitValue d
    if more < UInt64.size then absorb more digits else (significand, d :: digits)

/-- The largest exponent with a value; it takes 31 bits. -/
def greatestExponent : Nat := 0x7FFFFFFF

/-- The value of an exponent's digits, or, when it grows too large, the digits after the one that
made it do so. -/
def exponentValue (value : Nat) : List Char → Except (List Char) Nat
  | [] => .ok value
  | d :: digits =>
    let more := value * 10 + Text.digitValue d
    if more ≤ greatestExponent then exponentValue more digits else .error digits

/-- The largest power of ten that a float holds. -/
def greatestPower : Nat := 308

/-- Multiplies a float by a power of ten. A result too large to be held is none. -/
def scale (x : Float) (exponent : Int) : Option Float :=
  if exponent < -(greatestPower : Int) then
    if x == 0 then some x
    else scale (x / .ofScientific 1 false greatestPower) (exponent + greatestPower)
  else if exponent < 0 then some (x / .ofScientific 1 false exponent.natAbs)
  else if exponent ≤ greatestPower then
    let product := x * .ofScientific 1 false exponent.natAbs
    if product.isInf then none else some product
  else if x == 0 then some x
  else none
termination_by exponent.natAbs
decreasing_by simp only [greatestPower] at *; omega

def signed (negative : Bool) (x : Float) : Float := if negative then -x else x

/-- The value of a decimal, given the rest of the text to say where it stops being one. -/
def decimal (n : Numeral) (rest : List Char) : Except Fault Float :=
  let (significand, extra) := absorb 0 n.whole
  let digits := n.fraction.getD []
  let (significand, dropped) := absorb significand digits
  let shift : Int := extra.length - (digits.length - dropped.length : Nat)
  let scaled (exponent : Int) : Except Fault Float :=
    match scale significand.toUInt64.toFloat exponent with
    | some x => .ok (signed n.negative x)
    | none => .error (.here .numberOutOfRange rest)
  match n.exponent with
  | none => scaled shift
  | some (negative, digits) =>
    match exponentValue 0 digits with
    | .ok exponent => scaled (if negative then shift - exponent else shift + exponent)
    | .error after =>
      if significand ≠ 0 ∧ ¬ negative then .error (.here .numberOutOfRange (after ++ rest))
      else .ok (signed n.negative 0)

/-- An integer by its digits, if it is written as one and fits 64 bits: up to 2^64 - 1 above zero
and down to -2^63 below. A negative zero is no integer. -/
def integer? (n : Numeral) : Option Int :=
  match n.fraction, n.exponent, absorb 0 n.whole with
  | none, none, (magnitude, []) =>
    if n.negative then
      if 0 < magnitude ∧ Int64.minValue.toInt ≤ -(magnitude : Int) then some (-magnitude)
      else none
    else some magnitude
  | _, _, _ => none

end Numeral

/-- Reads a number for its value. -/
def readNumber (s : List Char) : Except Fault (Number × List Char) := do
  let (numeral, rest) ← Numeral.read .endInValue s
  match numeral.integer? with
  | some value => return (.integer value, rest)
  | none => return (.decimal (← numeral.decimal rest), rest)

/-- Passes over a number. -/
def skipNumber (s : List Char) : Except Fault (List Char) :=
  (Numeral.read .badNumber s).map Prod.snd

namespace Numeral

theorem length_readDigits {atEnd : Problem} {s digits rest : List Char}
    (h : readDigits atEnd s = .ok (digits, rest)) : rest.length < s.length := by
  unfold readDigits at h
  simp only at h
  split at h
  · contradiction
  · next hnil =>
    simp only [Except.ok.injEq, Prod.mk.injEq] at h
    obtain ⟨-, rfl⟩ := h
    have hsplit := congrArg List.length
      (List.takeWhile_append_dropWhile (p := Char.isDigit) (l := s))
    have hpos := List.length_pos_iff.2 hnil
    rw [List.length_append] at hsplit
    omega

theorem length_readWhole {atEnd : Problem} {s digits rest : List Char}
    (h : readWhole atEnd s = .ok (digits, rest)) : rest.length < s.length := by
  unfold readWhole at h
  split at h
  · split at h
    · contradiction
    · simp_all
  · exact length_readDigits h

theorem length_readFraction {atEnd : Problem} {s rest : List Char} {f : Option (List Char)}
    (h : readFraction atEnd s = .ok (f, rest)) : rest.length ≤ s.length := by
  unfold readFraction at h
  split at h
  · obtain ⟨⟨digits, last⟩, hd, hpair⟩ := exists_of_map_ok h
    obtain ⟨-, rfl⟩ := Prod.mk.inj hpair
    have := length_readDigits hd
    simp only [List.length_cons]
    omega
  · simp_all

theorem length_splitSign (s : List Char) : (splitSign s).2.length ≤ s.length := by
  unfold splitSign
  split <;> simp

theorem length_splitMinus (s : List Char) : (splitMinus s).2.length ≤ s.length := by
  unfold splitMinus
  split <;> simp

theorem length_readExponent {atEnd : Problem} {s rest : List Char}
    {e : Option (Bool × List Char)} (h : readExponent atEnd s = .ok (e, rest)) :
    rest.length ≤ s.length := by
  unfold readExponent at h
  split at h
  · next tail =>
    split at h
    · obtain ⟨⟨digits, last⟩, hd, hpair⟩ := exists_of_map_ok h
      obtain ⟨-, rfl⟩ := Prod.mk.inj hpair
      have := length_readDigits hd
      have := length_splitSign tail
      simp only [List.length_cons]
      omega
    · simp_all
  · simp_all

theorem length_read {atEnd : Problem} {s rest : List Char} {n : Numeral}
    (h : read atEnd s = .ok (n, rest)) : rest.length < s.length := by
  obtain ⟨⟨whole, s₁⟩, hw, h⟩ := exists_of_bind_ok h
  obtain ⟨⟨fraction, s₂⟩, hf, h⟩ := exists_of_bind_ok h
  obtain ⟨⟨exponent, s₃⟩, he, h⟩ := exists_of_bind_ok h
  have := length_splitMinus s
  have := length_readWhole hw
  have := length_readFraction hf
  have := length_readExponent he
  obtain ⟨-, rfl⟩ := Prod.mk.inj (Except.ok.inj h)
  omega

end Numeral

theorem length_readNumber {s rest : List Char} {n : Number}
    (h : readNumber s = .ok (n, rest)) : rest.length < s.length := by
  obtain ⟨⟨numeral, last⟩, hn, h⟩ := exists_of_bind_ok h
  have := Numeral.length_read hn
  simp only at h
  split at h
  · obtain ⟨-, rfl⟩ := Prod.mk.inj (Except.ok.inj h)
    exact this
  · obtain ⟨x, -, h⟩ := exists_of_bind_ok h
    obtain ⟨-, rfl⟩ := Prod.mk.inj (Except.ok.inj h)
    exact this

theorem length_skipNumber {s rest : List Char} (h : skipNumber s = .ok rest) :
    rest.length < s.length := by
  obtain ⟨⟨numeral, last⟩, hn, rfl⟩ := exists_of_map_ok h
  exact Numeral.length_read hn

end MetricCatalog.Json
