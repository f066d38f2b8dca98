import WorkerPool.Text.Blank

/-!
# Timestamps

A `Timestamp` is a moment of the calendar in universal time. `Timestamp.read` reads the notation of
RFC 3339, with spaces admitted between its parts, a space for the `T`, and years of other lengths
behind a sign; `Timestamp.write` writes it with as many groups of three digits of the second as are
needed.
-/

namespace WorkerPool

/-- A moment of the calendar, in universal time. A leap second is second 60. -/
structure Timestamp where
  year : Int
  month : Nat
  day : Nat
  hour : Nat
  minute : Nat
  second : Nat
  nano : Nat
deriving DecidableEq, Repr

namespace Timestamp

/-- The beginning of the year 1970. -/
def epoch : Timestamp := ⟨1970, 1, 1, 0, 0, 0, 0⟩

instance : Inhabited Timestamp := ⟨epoch⟩

/-- Why a text is no timestamp. -/
inductive Flaw where
  | outOfRange
  /-- In universal time it would be outside the calendar. -/
  | impossible
  | invalid
  | tooShort
  | tooLong
deriving DecidableEq, Repr

/-- The text of a flaw. -/
def Flaw.message : Flaw → String
  | outOfRange => "input is out of range"
  | impossible => "no possible date and time matching input"
  | invalid => "input contains invalid characters"
  | tooShort => "premature end of input"
  | tooLong => "trailing input"

/-- Whether the calendar has a year. -/
def hasYear (year : Int) : Bool :=
  -262143 ≤ year && year ≤ 262142

/-- Whether a year has a 29th of February. -/
def isLeap (year : Int) : Bool :=
  year % 4 = 0 && (year % 100 ≠ 0 || year % 400 = 0)

/-- The number of days of a month. -/
def daysIn (year : Int) (month : Nat) : Nat :=
  if month = 2 then (if isLeap year then 29 else 28)
  else if month = 4 ∨ month = 6 ∨ month = 9 ∨ month = 11 then 30
  else 31

/-- The day after a date. -/
def dayAfter (t : Timestamp) : Timestamp :=
  if t.day < daysIn t.year t.month then { t with day := t.day + 1 }
  else if t.month < 12 then { t with month := t.month + 1, day := 1 }
  else { t with year := t.year + 1, month := 1, day := 1 }

/-- The day before a date. -/
def dayBefore (t : Timestamp) : Timestamp :=
  if 1 < t.day then { t with day := t.day - 1 }
  else if 1 < t.month then { t with month := t.month - 1, day := daysIn t.year (t.month - 1) }
  else { t with year := t.year - 1, month := 12, day := 31 }

/-- The timestamp `minutes` earlier, for less than a day. -/
def earlier (t : Timestamp) (minutes : Int) : Timestamp :=
  let total : Int := t.hour * 60 + t.minute - minutes
  let inDay := (total % 1440).toNat
  let t' := { t with hour := inDay / 60, minute := inDay % 60 }
  if total < 0 then t'.dayBefore else if 1440 ≤ total then t'.dayAfter else t'

/-- What is left of some characters without the blanks in front. -/
def skipBlank (cs : List Char) : List Char :=
  cs.dropWhile Text.isBlankChar

/-- Whether a character is a decimal digit. -/
def isDigit (c : Char) : Bool :=
  '0' ≤ c && c ≤ '9'

/-- The number that digits spell. -/
def ofDigits (digits : List Char) : Nat :=
  digits.foldl (fun n c => n * 10 + (c.toNat - '0'.toNat)) 0

/-- Read a number of at most `width` digits. -/
def readNumber (width : Nat) (cs : List Char) : Except Flaw (Nat × List Char) :=
  let digits := (cs.take width).takeWhile isDigit
  if digits.isEmpty then .error (if cs.isEmpty then .tooShort else .invalid)
  else if UInt64.size / 2 ≤ ofDigits digits then .error .outOfRange
  else .ok (ofDigits digits, cs.drop digits.length)

/-- Read one given character. -/
def readLiteral (c : Char) : List Char → Except Flaw (List Char)
  | [] => .error .tooShort
  | first :: rest => if first = c then .ok rest else .error .invalid

/-- Read a part of two digits between bounds, blanks in front admitted. -/
def readPart (least greatest : Nat) (cs : List Char) : Except Flaw (Nat × List Char) := do
  let (n, rest) ← readNumber 2 (skipBlank cs)
  if n < least ∨ greatest < n then throw .outOfRange
  return (n, rest)

/-- Read a year: four digits, or any number of them behind a sign. -/
def readYear (cs : List Char) : Except Flaw (Int × List Char) := do
  let (year, rest) ←
    match skipBlank cs with
    | '-' :: digits => do
      let (n, rest) ← readNumber digits.length digits
      pure (-(n : Int), rest)
    | '+' :: digits => do
      let (n, rest) ← readNumber digits.length digits
      pure ((n : Int), rest)
    | other => do
      let (n, rest) ← readNumber 4 other
      pure ((n : Int), rest)
  if year < -2147483648 ∨ 2147483647 < year then throw .outOfRange
  return (year, rest)

/-- Read what is below the second, in nanoseconds; digits beyond the ninth are dropped. -/
def readFraction : List Char → Except Flaw (Nat × List Char)
  | '.' :: cs => do
    let (n, _) ← readNumber 9 cs
    let digits := cs.takeWhile isDigit
    return (n * Nat.pow 10 (9 - min digits.length 9), cs.drop digits.length)
  | cs => .ok (0, cs)

/-- Read two digits. What is left is too short for them if it has less than two bytes. -/
def readTwo : List Char → Except Flaw (Nat × List Char)
  | a :: b :: rest =>
    if isDigit a ∧ isDigit b then .ok (ofDigits [a, b], rest) else .error .invalid
  | [c] => .error (if c.utf8Size < 2 then .tooShort else .invalid)
  | [] => .error .tooShort

/-- Read the distance from universal time, in minutes. -/
def readOffset (cs : List Char) : Except Flaw (Int × List Char) :=
  match cs with
  | [] => .error .tooShort
  | c :: rest =>
    if c = 'Z' ∨ c = 'z' then .ok (0, rest)
    else if c = '+' ∨ c = '-' ∨ c = '\u2212' then do
      let (hours, rest) ← readTwo rest
      let (minutes, rest) ← readTwo (rest.dropWhile fun c => c = ':' || Text.isBlankChar c)
      if 59 < minutes then throw .outOfRange
      let total : Int := hours * 60 + minutes
      return (if c = '+' then total else -total, rest)
    else .error .invalid

/-- Read the distance from universal time, or its name. -/
def readZone (cs : List Char) : Except Flaw (Int × List Char) :=
  match cs with
  | u :: t :: c :: rest =>
    if u.toUpper = 'U' ∧ t.toUpper = 'T' ∧ c.toUpper = 'C' then .ok (0, rest) else readOffset cs
  | _ => readOffset cs

/-- Read a timestamp. -/
def readChars (cs : List Char) : Except Flaw Timestamp := do
  let (year, cs) ← readYear cs
  let cs ← readLiteral '-' (skipBlank cs)
  let (month, cs) ← readPart 1 12 cs
  let cs ← readLiteral '-' (skipBlank cs)
  let (day, cs) ← readPart 1 31 cs
  let cs ←
    match cs with
    | [] => throw .tooShort
    | c :: rest => if c = 't' ∨ c = 'T' ∨ c = ' ' then pure rest else throw .invalid
  let (hour, cs) ← readPart 0 23 cs
  let cs ← readLiteral ':' (skipBlank cs)
  let (minute, cs) ← readPart 0 59 cs
  let cs ← readLiteral ':' (skipBlank cs)
  let (second, cs) ← readPart 0 60 cs
  let (nano, cs) ← readFraction cs
  let (offset, cs) ← readZone (skipBlank cs)
  if !(skipBlank cs).isEmpty then throw .tooLong
  if !hasYear year ∨ daysIn year month < day ∨ 1440 ≤ offset.natAbs then throw .outOfRange
  let universal := { year, month, day, hour, minute, second, nano : Timestamp }.earlier offset
  if !hasYear universal.year then throw .impossible
  return universal

/-- Read a timestamp. -/
def read (text : String) : Except Flaw Timestamp :=
  readChars text.toList

/-- A number in at least that many digits. -/
def padded (width n : Nat) : String :=
  let digits := toString n
  String.ofList (List.replicate (width - digits.length) '0') ++ digits

/-- The year: four digits, with a sign if they are not enough. -/
def writeYear (year : Int) : String :=
  if 0 ≤ year ∧ year ≤ 9999 then padded 4 year.toNat
  else (if year < 0 then "-" else "+") ++ padded 4 year.natAbs

/-- What is below the second: three, six or nine digits, or nothing. -/
def writeFraction (nano : Nat) : String :=
  if nano = 0 then ""
  else if nano % 1000000 = 0 then "." ++ padded 3 (nano / 1000000)
  else if nano % 1000 = 0 then "." ++ padded 6 (nano / 1000)
  else "." ++ padded 9 nano

/-- Write a timestamp. -/
def write (t : Timestamp) : String :=
  writeYear t.year ++ "-" ++ padded 2 t.month ++ "-" ++ padded 2 t.day ++ "T" ++
    padded 2 t.hour ++ ":" ++ padded 2 t.minute ++ ":" ++ padded 2 t.second ++
    writeFraction t.nano ++ "Z"

end Timestamp

end WorkerPool
