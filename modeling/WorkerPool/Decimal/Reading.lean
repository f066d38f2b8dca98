/-!
# Reading decimal numbers into floating point

A decimal number is read through a 64-bit significand: digits are taken into it as long as they fit.
Further digits before the point raise the power of ten by one each, the digits after the point that
were taken lower it. The significand is then scaled by the power of ten in floating point, in steps
of at most `10 ^ 308`; what grows beyond every finite number is out of range.

The point does not stop a significand that is full: a digit that still fits is taken.
-/

namespace WorkerPool.Decimal

/-- The greatest significand. -/
def greatestWord : Nat := 18446744073709551615

/-- Take digits into a significand as long as it fits a word; the value is the significand and the
digits that are left. -/
def absorb : Nat → List Nat → Nat × List Nat
  | s, [] => (s, [])
  | s, d :: rest =>
    if s * 10 + d ≤ greatestWord then absorb (s * 10 + d) rest else (s, d :: rest)

/-- The number that digits spell. -/
def ofDigits (digits : List Nat) : Nat :=
  digits.foldl (fun n d => n * 10 + d) 0

/-- A power of ten as a floating-point number. -/
def tenPow (n : Nat) : Float :=
  Float.ofScientific 1 false n

/-- The greatest magnitude of an exponent. -/
def greatestExponent : Nat := 2147483647

/-- How many digits of an exponent are not looked at any more, because those before them are already
beyond the greatest; `e` is what the digits before these spell. -/
def unreadFrom (e : Nat) : List Nat → Nat
  | [] => 0
  | d :: rest => if greatestExponent < e * 10 + d then rest.length else unreadFrom (e * 10 + d) rest

/-- Scale a number by a power of ten; `none` if it grows beyond every finite number. -/
def scale (f : Float) (e : Int) : Option Float :=
  if 308 < e then
    if f == 0.0 then some f else none
  else if 0 ≤ e then
    let scaled := f * tenPow e.toNat
    if scaled.isInf then none else some scaled
  else if -308 ≤ e then
    some (f / tenPow (-e).toNat)
  else if f == 0.0 then
    some f
  else
    scale (f / 1e308) (e + 308)
termination_by (-e).toNat

/-- The floating-point number that is read for a decimal one: the digits before the point, after it,
and of the exponent with its sign. The sign of the whole is not part of it; `none` is out of range. -/
def read (whole fraction : List Nat) (exponent : Option (Bool × List Nat)) : Option Float :=
  let (s, left) := absorb 0 whole
  let (s, unread) := absorb s fraction
  let power : Int := left.length - (fraction.length - unread.length : Nat)
  match exponent with
  | none => scale s.toUInt64.toFloat power
  | some (negative, digits) =>
    let e := ofDigits digits
    if greatestExponent < e then
      if s ≠ 0 ∧ !negative then none else some 0.0
    else
      let power := if negative then power - e else power + e
      scale s.toUInt64.toFloat (max (-(greatestExponent + 1 : Nat)) (min greatestExponent power))

end WorkerPool.Decimal
