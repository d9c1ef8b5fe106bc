import MetricCatalog.Toml.Lexeme

/-!
# Dates and times of a TOML text

A moment is a date, a time of day, or both; with both it may also have an offset. Its written form
is canonical: both parts joined by a `T`, the fraction of a second without zeros at its end and
with nine digits at most.
-/

namespace MetricCatalog.Toml

structure Date where
  year : Nat
  month : Nat
  day : Nat
  deriving DecidableEq, Repr

structure Time where
  hour : Nat
  minute : Nat
  second : Nat
  nanosecond : Nat
  deriving DecidableEq, Repr

/-- How far local time is from universal time, in minutes; universal time itself has a name. -/
inductive Offset where
  | universal
  | minutes (value : Int)
  deriving DecidableEq, Repr

structure Moment where
  date : Option Date
  time : Option Time
  offset : Option Offset
  deriving DecidableEq, Repr

def isLeapYear (year : Nat) : Bool :=
  year % 4 = 0 && (year % 100 ≠ 0 || year % 400 = 0)

def daysInMonth (year month : Nat) : Nat :=
  if month = 2 then if isLeapYear year then 29 else 28
  else if month = 4 ∨ month = 6 ∨ month = 9 ∨ month = 11 then 30
  else 31

/-- Reads a number of exactly so many digits that lies between two limits. -/
def readBetween (digits low high : Nat) (s : List Char) : Option (Nat × List Char) := do
  let (n, rest) ← readFixed Text.decimalValue? 10 digits 0 s
  if low ≤ n ∧ n ≤ high then return (n, rest) else none

/-- Takes one given character. -/
def takeChar (c : Char) : List Char → Option (List Char)
  | d :: rest => if d = c then some rest else none
  | [] => none

def readDate (s : List Char) : Option (Date × List Char) := do
  let (year, s) ← readFixed Text.decimalValue? 10 4 0 s
  let s ← takeChar '-' s
  let (month, s) ← readBetween 2 1 12 s
  let s ← takeChar '-' s
  let (day, s) ← readBetween 2 1 (daysInMonth year month) s
  return (⟨year, month, day⟩, s)

/-- Reads a fraction of a second as nanoseconds; further digits are dropped. -/
def readNanoseconds (s : List Char) : Nat × List Char :=
  match s with
  | '.' :: rest =>
    let digits := rest.takeWhile Char.isDigit
    if digits = [] then (0, s)
    else
      let kept := (digits ++ List.replicate 9 '0').take 9
      (Text.digitsValue 10 kept, rest.dropWhile Char.isDigit)
  | _ => (0, s)

def readTime (s : List Char) : Option (Time × List Char) := do
  let (hour, s) ← readBetween 2 0 23 s
  let s ← takeChar ':' s
  let (minute, s) ← readBetween 2 0 59 s
  let s ← takeChar ':' s
  let (second, s) ← readBetween 2 0 60 s
  let (nanosecond, s) := readNanoseconds s
  return (⟨hour, minute, second, nanosecond⟩, s)

/-- Reads hours and minutes of an offset. -/
def readOffsetMinutes (s : List Char) : Option (Nat × List Char) := do
  let (hour, s) ← readBetween 2 0 23 s
  let s ← takeChar ':' s
  let (minute, s) ← readBetween 2 0 59 s
  return (hour * 60 + minute, s)

/-- Reads an offset, if there is one. -/
def readOffset (s : List Char) : Option (Option Offset × List Char) :=
  match s with
  | 'Z' :: rest => some (some .universal, rest)
  | 'z' :: rest => some (some .universal, rest)
  | '+' :: rest => (readOffsetMinutes rest).map fun (n, rest) => (some (.minutes n), rest)
  | '-' :: rest => (readOffsetMinutes rest).map fun (n, rest) => (some (.minutes (-n)), rest)
  | _ => some (none, s)

/-- Reads a moment. A blank after a date joins it to a time only if a time follows. -/
def readMoment (s : List Char) : Option (Moment × List Char) :=
  match readDate s with
  | none => (readTime s).map fun (time, rest) => (⟨none, some time, none⟩, rest)
  | some (date, rest) =>
    match rest with
    | c :: afterMark =>
      if c = 'T' ∨ c = 't' ∨ c = ' ' then
        match readTime afterMark with
        | some (time, rest) =>
          (readOffset rest).map fun (offset, rest) => (⟨some date, some time, offset⟩, rest)
        | none => some (⟨some date, none, none⟩, rest)
      else some (⟨some date, none, none⟩, rest)
    | [] => some (⟨some date, none, none⟩, rest)

/-- Decimal digits, filled up with zeros in front. -/
def padded (width n : Nat) : List Char :=
  let digits := Nat.toDigits 10 n
  List.replicate (width - digits.length) '0' ++ digits

def Date.write (d : Date) : List Char :=
  padded 4 d.year ++ '-' :: padded 2 d.month ++ '-' :: padded 2 d.day

def Time.write (t : Time) : List Char :=
  let fraction :=
    if t.nanosecond = 0 then []
    else '.' :: ((padded 9 t.nanosecond).reverse.dropWhile (· = '0')).reverse
  padded 2 t.hour ++ ':' :: padded 2 t.minute ++ ':' :: padded 2 t.second ++ fraction

def Offset.write : Offset → List Char
  | .universal => ['Z']
  | .minutes value =>
    (if value < 0 then '-' else '+') ::
      padded 2 (value.natAbs / 60) ++ ':' :: padded 2 (value.natAbs % 60)

def Moment.write (m : Moment) : List Char :=
  let mark := if m.date.isSome && m.time.isSome then ['T'] else []
  m.date.elim [] Date.write ++ mark ++ m.time.elim [] Time.write ++ m.offset.elim [] Offset.write

end MetricCatalog.Toml
