/-!
# The shortest decimal that reads back

A finite floating-point number stands for every real number that rounds to it: an interval around it
whose ends belong to it when its significand is even. `shortest` is the decimal in that interval with
the fewest digits, and of two such the nearer. Everything is worked out exactly, in natural numbers.

`FloatLayout` says how such a decimal is written: which exponents are written with a point among the
digits, and how the others are.
-/

namespace WorkerPool.Decimal

/-- A positive number, `digits * 10 ^ power`. -/
structure Scientific where
  digits : Nat
  power : Int
deriving DecidableEq, Repr

/-- A positive number, `significand * 2 ^ power`. -/
structure Binary where
  significand : Nat
  power : Int
deriving DecidableEq, Repr

/-- What the leading bit of a full significand is worth, `2 ^ 52`. -/
def leadingBit : Nat := 4503599627370496

namespace Binary

/-- The magnitude of a finite floating-point number by its bits; zero has significand zero. -/
def ofBits (bits : UInt64) : Binary :=
  let fraction : Nat := bits.toNat % leadingBit
  let exponent : Nat := bits.toNat / leadingBit % 2048
  if exponent = 0 then ⟨fraction, -1074⟩ else ⟨fraction + leadingBit, (exponent : Int) - 1075⟩

/-- The interval of the numbers that round to this one, in quarters of its last place: the lower end
and the upper. Below a power of two the numbers lie twice as close. -/
def interval (b : Binary) : Nat × Nat :=
  let lower := if b.significand = leadingBit ∧ -1074 < b.power then 1 else 2
  (4 * b.significand - lower, 4 * b.significand + 2)

end Binary

/-- `n * 10 ^ e` and `m * 2 ^ f` as natural numbers in one unit. -/
def inOneUnit (n : Nat) (e : Int) (m : Nat) (f : Int) : Nat × Nat :=
  (n * Nat.pow 10 e.toNat * Nat.pow 2 (-f).toNat, m * Nat.pow 2 f.toNat * Nat.pow 10 (-e).toNat)

/-- Whether `n * 10 ^ e` lies in the interval of the numbers that round to `b`. -/
def reads (b : Binary) (n : Nat) (e : Int) : Bool :=
  let (lower, upper) := b.interval
  let low := inOneUnit n e lower (b.power - 2)
  let high := inOneUnit n e upper (b.power - 2)
  if b.significand % 2 = 0 then low.2 ≤ low.1 && high.1 ≤ high.2
  else low.2 < low.1 && high.1 < high.2

/-- The greatest `n` for which `n * 10 ^ e` is at most `b`. -/
def below (b : Binary) (e : Int) : Nat :=
  (b.significand * Nat.pow 2 b.power.toNat * Nat.pow 10 (-e).toNat) /
    (Nat.pow 10 e.toNat * Nat.pow 2 (-b.power).toNat)

/-- Whether `n * 10 ^ e` is at least as near to `b` as `(n + 1) * 10 ^ e` is, for `n` as in `below`. -/
def lowerIsNearer (b : Binary) (n : Nat) (e : Int) : Bool :=
  let (twice, sum) := inOneUnit (2 * n + 1) e (2 * b.significand) b.power
  sum < twice || (sum == twice && n % 2 == 0)

/-- The decimal of the grid `10 ^ e` that reads back as `b`, the nearer if there are two. -/
def onGrid? (b : Binary) (e : Int) : Option Nat :=
  let n := below b e
  match reads b n e, reads b (n + 1) e with
  | true, true => some (if lowerIsNearer b n e then n else n + 1)
  | true, false => some n
  | false, true => some (n + 1)
  | false, false => none

/-- The number of decimal digits of a natural number. -/
def digitCount (n : Nat) : Nat :=
  (Nat.toDigits 10 n).length

/-- The power of ten of the first digit of a positive number. -/
def leadingPower (b : Binary) : Int :=
  let above := below b 0
  if 0 < above then digitCount above - 1
  else
    let inverse := Nat.pow 2 (-b.power).toNat / (b.significand * Nat.pow 2 b.power.toNat)
    let guess : Int := -(digitCount inverse : Int)
    if 10 ≤ below b guess then guess + 1 else guess

/-- Try the grids of ever more digits, from `count` digits on. -/
def search (b : Binary) (lead : Int) : (fuel count : Nat) → Scientific
  | 0, _ => ⟨below b (lead - 16), lead - 16⟩
  | fuel + 1, count =>
    let e := lead - (count - 1 : Nat)
    match onGrid? b e with
    | some n => ⟨n, e⟩
    | none => search b lead fuel (count + 1)

/-- Drop the zeros at the end of the digits, at most that many. -/
def trim : (fuel : Nat) → Scientific → Scientific
  | 0, d => d
  | fuel + 1, d =>
    if d.digits ≠ 0 ∧ d.digits % 10 = 0 then trim fuel ⟨d.digits / 10, d.power + 1⟩ else d

/-- The decimal with the fewest digits that reads back as a positive number. -/
def shortest (b : Binary) : Scientific :=
  trim 20 (search b (leadingPower b) 17 1)

/-- How a number is written. A number whose first digit has a power of ten between `leastFixed` and
`greatestFixed` is written with its point in place, every other one with an exponent. -/
structure FloatLayout where
  leastFixed : Int
  greatestFixed : Int

/-- A text made of `n` zeros. -/
def zeros (n : Nat) : String :=
  String.ofList (List.replicate n '0')

/-- Write a positive decimal. -/
def FloatLayout.write (layout : FloatLayout) (d : Scientific) : String :=
  let digits := toString d.digits
  let count := digits.length
  let lead : Int := d.power + count - 1
  if layout.leastFixed ≤ lead ∧ lead ≤ layout.greatestFixed then
    if 0 ≤ d.power then
      digits ++ zeros d.power.toNat ++ ".0"
    else if 0 ≤ lead then
      (digits.take (lead.toNat + 1)).toString ++ "." ++ (digits.drop (lead.toNat + 1)).toString
    else
      "0." ++ zeros ((-lead).toNat - 1) ++ digits
  else
    let mantissa :=
      if count = 1 then digits else (digits.take 1).toString ++ "." ++ (digits.drop 1).toString
    mantissa ++ "e" ++ (if lead < 0 then "-" else "+") ++ toString lead.natAbs

/-- Write a floating-point number. -/
def FloatLayout.writeFloat (layout : FloatLayout) (f : Float) : String :=
  let bits := f.toBits
  let sign := if UInt64.size / 2 ≤ bits.toNat then "-" else ""
  let magnitude := Binary.ofBits bits
  if f.isNaN then "NaN"
  else if f.isInf then sign ++ "inf"
  else if magnitude.significand = 0 then sign ++ "0.0"
  else sign ++ layout.write (shortest magnitude)

end WorkerPool.Decimal
