import WorkerPool.Decimal.Reading
import WorkerPool.Decimal.Shortest
import WorkerPool.Json.Token

/-!
# Numbers in JSON

A number without fraction and exponent is an integer if a 64-bit word holds it, with or without sign;
every other number is read as floating point, and so is minus zero.
-/

namespace WorkerPool.Json

/-- What a number is read as. -/
inductive NumberValue where
  | natural (n : Nat)
  /-- The integer `-n`, where `n` is not zero. -/
  | negative (n : Nat)
  | real (x : Float)
  | outOfRange

namespace Numeral

/-- The number as floating point. -/
def toFloat? (n : Numeral) : Option Float :=
  (Decimal.read n.whole (n.fraction.getD []) n.exponent).map fun x => if n.negative then -x else x

/-- How many digits at the end of a number that is out of range are not looked at. -/
def unread (n : Numeral) : Nat :=
  match n.exponent with
  | some (_, digits) => Decimal.unreadFrom 0 digits
  | none => 0

/-- What the number is read as. The digits of an integer are taken into a word one by one; if some are left, the
number is read again from the start as floating point. -/
def value (n : Numeral) : NumberValue :=
  let real :=
    match n.toFloat? with
    | some x => .real x
    | none => .outOfRange
  match n.fraction, n.exponent with
  | none, none =>
    match Decimal.absorb 0 n.whole with
    | (magnitude, []) =>
      if n.negative then
        if magnitude ≠ 0 ∧ magnitude ≤ UInt64.size / 2 then .negative magnitude else real
      else .natural magnitude
    | (_, _ :: _) => real
  | _, _ => real

end Numeral

/-- Floating-point numbers in messages have a point or an exponent: a point from `1e-5` up to `1e16`,
and else an exponent with its sign. -/
def messageLayout : Decimal.FloatLayout where
  leastFixed := -5
  greatestFixed := 15

end WorkerPool.Json
