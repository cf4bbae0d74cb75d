import DeviceAttest.Bytes

/-!
# Numbers, dates and times in TOML

Integers in four bases, floats, and dates and times.  The value of a float or a date is of no
concern here; they are checked for their form, dates against the calendar, and floats for not
growing beyond the largest one.
-/

namespace DeviceAttest.Toml

/-! ### Digits -/

/-- Reads digits, between which single underscores may stand; these are left out. -/
def readDigits (isDigit : Char → Bool) : List Char → List Char × List Char
  | c :: '_' :: d :: s =>
    if isDigit c then
      if isDigit d then
        let (ds, s) := readDigits isDigit (d :: s)
        (c :: ds, s)
      else ([c], '_' :: d :: s)
    else ([], c :: '_' :: d :: s)
  | c :: s             =>
    if isDigit c then
      let (ds, s) := readDigits isDigit s
      (c :: ds, s)
    else ([], c :: s)
  | []                 => ([], [])

/-- The value of a digit of any base up to sixteen. -/
def digitValue (c : Char) : Nat := (Bytes.hexValue? c).getD 0

/-- The number that digits of a base spell. -/
def ofDigits (base : Nat) (digits : List Char) : Nat :=
  digits.foldl (fun n c => n * base + digitValue c) 0

/-- Reads a sign, if there is one; the answer says whether it is negative. -/
def readSign (s : List Char) : Bool × List Char :=
  match s with
  | '-' :: s => (true, s)
  | '+' :: s => (false, s)
  | s        => (false, s)

/-- Reads the digits of a decimal number, of which the first is zero only if it is the only one. -/
def readDecimal (s : List Char) : Option (List Char × List Char) :=
  match s with
  | '0' :: s => some (['0'], s)
  | s        =>
    match readDigits Char.isDigit s with
    | ([], _)  => none
    | (ds, s)  => some (ds, s)

/-! ### Integers -/

/-- The integer of a sign and a magnitude, if it has 64 bits. -/
def integer? (negative : Bool) (magnitude : Nat) : Option Int :=
  let n : Int := if negative then -magnitude else magnitude
  if -0x8000000000000000 ≤ n ∧ n ≤ 0x7fffffffffffffff then some n else none

/-- Reads the digits of a number in another base, after what announces the base. -/
def readInBase (base : Nat) (isDigit : Char → Bool) (s : List Char) : Option (Int × List Char) :=
  match readDigits isDigit s with
  | ([], _) => none
  | (ds, s) => (integer? false (ofDigits base ds)).map (·, s)

/-- Reads an integer. -/
def readInteger (s : List Char) : Option (Int × List Char) :=
  match s with
  | '0' :: 'x' :: s => readInBase 16 (fun c => (Bytes.hexValue? c).isSome) s
  | '0' :: 'o' :: s => readInBase 8 (fun c => '0' ≤ c && c ≤ '7') s
  | '0' :: 'b' :: s => readInBase 2 (fun c => c = '0' || c = '1') s
  | s               => do
    let (negative, s) := readSign s
    let (digits, s) ← readDecimal s
    (integer? negative (ofDigits 10 digits)).map (·, s)

/-! ### Floats -/

/-- Whether a decimal number rounds beyond the largest float of 64 bits.  Numbers below 10^308 do
not, those from 10^309 on do, and those between are compared with the middle between the largest
float and the next power of two. -/
def overflows (digits : List Char) (exponent : Int) : Bool :=
  let m := ofDigits 10 digits
  let limit := Nat.pow 2 1024 - Nat.pow 2 970
  let places : Int := (toString m).length + exponent
  if m = 0 ∨ places < 309 then false
  else if 309 < places then true
  else if 0 ≤ exponent then limit ≤ m * Nat.pow 10 exponent.toNat
  else limit * Nat.pow 10 (-exponent).toNat ≤ m

/-- Reads an exponent. -/
def readExponent (s : List Char) : Option (Int × List Char) :=
  match s with
  | 'e' :: s | 'E' :: s =>
    let (negative, s) := readSign s
    match readDigits Char.isDigit s with
    | ([], _) => none
    | (ds, s) =>
      let n : Int := ofDigits 10 ds
      some (if negative then -n else n, s)
  | _                   => none

/-- Reads a fraction. -/
def readFraction (s : List Char) : Option (List Char × List Char) :=
  match s with
  | '.' :: s =>
    match readDigits Char.isDigit s with
    | ([], _) => none
    | (ds, s) => some (ds, s)
  | _        => none

/-- Drops a float that is no number, or infinite. -/
def dropSpecialFloat (s : List Char) : Option (List Char) :=
  match (readSign s).2 with
  | 'i' :: 'n' :: 'f' :: s => some s
  | 'n' :: 'a' :: 'n' :: s => some s
  | _                      => none

/-- Drops a float with a fraction or an exponent; only a negative one may overflow. -/
def dropFloat (s : List Char) : Option (List Char) := do
  let (negative, s) := readSign s
  let (digits, s) ← readDecimal s
  let (fraction, s) ← match readFraction s with
    | some (ds, s) => some (ds, s)
    | none         => (readExponent s).map fun _ => ([], s)
  let (exponent, s) := (readExponent s).getD (0, s)
  if ¬ negative ∧ overflows (digits ++ fraction) (exponent - fraction.length) then none else some s

/-! ### Dates and times -/

/-- Reads a fixed number of digits as a number between two bounds. -/
def readField (count low high : Nat) (s : List Char) : Option (Nat × List Char) :=
  let digits := s.take count
  let n := ofDigits 10 digits
  if digits.length = count ∧ digits.all Char.isDigit ∧ low ≤ n ∧ n ≤ high then
    some (n, s.drop count)
  else none

/-- Drops an expected character. -/
def dropChar (c : Char) (s : List Char) : Option (List Char) :=
  match s with
  | d :: s => if c = d then some s else none
  | []     => none

/-- The days of a month. -/
def daysIn (year month : Nat) : Nat :=
  if month = 2 then
    if year % 4 = 0 ∧ (year % 100 ≠ 0 ∨ year % 400 = 0) then 29 else 28
  else if month ∈ [4, 6, 9, 11] then 30
  else 31

/-- Drops a date. -/
def dropDate (s : List Char) : Option (List Char) := do
  let (year, s) ← readField 4 0 9999 s
  let s ← dropChar '-' s
  let (month, s) ← readField 2 1 12 s
  let s ← dropChar '-' s
  let (_, s) ← readField 2 1 (daysIn year month) s
  some s

/-- Drops the hours and minutes of a time. -/
def dropHourMinute (s : List Char) : Option (List Char) := do
  let (_, s) ← readField 2 0 23 s
  let s ← dropChar ':' s
  let (_, s) ← readField 2 0 59 s
  some s

/-- Drops a time of the day, perhaps with a fraction of a second. -/
def dropTime (s : List Char) : Option (List Char) := do
  let s ← dropHourMinute s
  let s ← dropChar ':' s
  let (_, s) ← readField 2 0 60 s
  match s with
  | '.' :: c :: s' => if c.isDigit then some (s'.dropWhile Char.isDigit) else some s
  | _              => some s

/-- Drops a time zone, if there is one. -/
def dropZone (s : List Char) : Option (List Char) :=
  match s with
  | 'Z' :: s | 'z' :: s => some s
  | '+' :: s | '-' :: s => dropHourMinute s
  | _                   => some s

/-- Drops a date, a time, or both; only a date with a time may have a zone. -/
def dropMoment (s : List Char) : Option (List Char) :=
  match dropDate s with
  | none   => dropTime s
  | some s =>
    match s with
    | c :: s' =>
      if c = 'T' ∨ c = 't' ∨ c = ' ' then
        match dropTime s' with
        | some s' => dropZone s'
        | none    => some s
      else some s
    | []      => some s

end DeviceAttest.Toml
