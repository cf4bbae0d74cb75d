import DeviceAttest.Bytes

/-!
# Times of certificates

A validity period is two times, each in one of two notations.  A time is only checked: it must be a
date of the calendar and a time of the day.
-/

namespace DeviceAttest.X509.Time

/-- Whether a year of the Gregorian calendar has a 29th of February. -/
def isLeapYear (year : Nat) : Bool := year % 4 = 0 && (year % 100 ≠ 0 || year % 400 = 0)

/-- The days of a month counted from one; there is none in other months. -/
def daysInMonth (year month : Nat) : Nat :=
  match month with
  | 1 | 3 | 5 | 7 | 8 | 10 | 12 => 31
  | 4 | 6 | 9 | 11              => 30
  | 2                           => if isLeapYear year then 29 else 28
  | _                           => 0

/-- Whether a date is one of the calendar. -/
def isDate (year month day : Nat) : Bool := 1 ≤ day && day ≤ daysInMonth year month

/-- Whether a time is one of the day. -/
def isClock (hour minute second : Nat) : Bool := hour ≤ 23 && minute ≤ 59 && second ≤ 59

/-- The value of a digit. -/
def digit? (b : UInt8) : Option Nat := if 48 ≤ b && b ≤ 57 then some (b.toNat - 48) else none

/-- Reads two digits. -/
def readPair : Bytes → Option (Nat × Bytes)
  | a :: b :: s => do
    let high ← digit? a
    let low ← digit? b
    some (10 * high + low, s)
  | _ => none

/-- Reads the seconds, which may be left out before a single last octet. -/
def readSeconds (s : Bytes) : Option (Nat × Bytes) :=
  if s.length = 1 then some (0, s) else readPair s

/-- Whether the rest states a time zone: `Z`, or hours and minutes with a sign. -/
def isZone (s : Bytes) : Bool :=
  match s with
  | [90]      => true
  | sign :: s =>
    (sign = 43 || sign = 45) &&
      match readPair s with
      | none           => false
      | some (hour, s) =>
        match readPair s with
        | some (minute, []) => hour ≤ 25 && minute ≤ 59
        | _                 => false
  | []        => false

/-- Drops a point and up to three digits after it. -/
def dropFraction (s : Bytes) : Bytes :=
  match s with
  | 46 :: s =>
    let digits := s.takeWhile fun b => (digit? b).isSome
    if digits.length ≤ 3 then s.drop digits.length else 46 :: s
  | _       => s

/-- The month, day, hour, minute and second that follow a year, and what is left. -/
def readFields (s : Bytes) : Option ((Nat × Nat × Nat × Nat × Nat) × Bytes) := do
  let (month, s) ← readPair s
  let (day, s) ← readPair s
  let (hour, s) ← readPair s
  let (minute, s) ← readPair s
  let (second, s) ← readSeconds s
  some ((month, day, hour, minute, second), s)

/-- Whether the octets are a time with a year of two digits, which lies in 1950 to 2049. -/
def isUtcTime (s : Bytes) : Bool :=
  match readPair s with
  | none         => false
  | some (yy, s) =>
    match readFields s with
    | none => false
    | some ((month, day, hour, minute, second), s) =>
      isDate (if yy < 50 then 2000 + yy else 1900 + yy) month day
        && isClock hour minute second && isZone s

/-- Whether the octets are a time with a year of four digits, which ends in `Z`. -/
def isGeneralizedTime (s : Bytes) : Bool :=
  match readPair s with
  | none              => false
  | some (century, s) =>
    match readPair s with
    | none         => false
    | some (yy, s) =>
      match readFields s with
      | none => false
      | some ((month, day, hour, minute, second), s) =>
        isDate (100 * century + yy) month day
          && isClock hour minute second && dropFraction s == [90]

end DeviceAttest.X509.Time
