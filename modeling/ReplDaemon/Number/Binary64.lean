/-!
# Binary floating point numbers as exact numbers

A finite `Float` is an integer times a power of two. Taking it apart lets its decimal text and its
remainder be computed in exact arithmetic.
-/

namespace ReplDaemon.Number

/-- A finite number `± mantissa * 2 ^ exponent`, with the sign kept for zero. -/
structure Dyadic where
  negative : Bool
  mantissa : Nat
  exponent : Int
  deriving Repr, DecidableEq

/-- What a `Float` stands for. -/
inductive Reading where
  | nan
  | infinite (negative : Bool)
  | finite (value : Dyadic)
  deriving Repr, DecidableEq

/-- The bit above the fraction of a number that is not subnormal. -/
def leadingBit : Nat := 1 <<< 52

/-- Takes the bits of a number apart: a sign, eleven bits of exponent, 52 bits of fraction. -/
def Reading.ofBits (bits : UInt64) : Reading :=
  let n := bits.toNat
  let negative := n.testBit 63
  let biased : Nat := n / leadingBit % 2048
  let fraction := n % leadingBit
  if biased = 2047 then
    if fraction = 0 then .infinite negative else .nan
  else if biased = 0 then .finite ⟨negative, fraction, -1074⟩
  else .finite ⟨negative, leadingBit + fraction, Int.ofNat biased - 1075⟩

/-- What a number stands for. -/
def Reading.ofFloat (x : Float) : Reading :=
  .ofBits x.toBits

/-- The number nearest to a dyadic one. -/
def Dyadic.toFloat (d : Dyadic) : Float :=
  let x := (Float.ofNat d.mantissa).scaleB d.exponent
  if d.negative then -x else x

/-- The remainder of a division that truncates, computed exactly: it has the sign of the dividend
and is smaller than the divisor. -/
def Dyadic.remainder (a b : Dyadic) : Dyadic :=
  let exponent := min a.exponent b.exponent
  let aligned (d : Dyadic) : Nat := d.mantissa * Nat.pow 2 (d.exponent - exponent).toNat
  { negative := a.negative, mantissa := aligned a % aligned b, exponent }

/-- The remainder of `x` by `y` in floating point: there is none of an infinite dividend or by zero,
and an infinite divisor leaves the dividend as it is. -/
def remainder (x y : Float) : Float :=
  match Reading.ofFloat x, Reading.ofFloat y with
  | .finite a, .finite b => if b.mantissa = 0 then 0.0 / 0.0 else (a.remainder b).toFloat
  | .finite _, .infinite _ => x
  | _, _ => 0.0 / 0.0

end ReplDaemon.Number
