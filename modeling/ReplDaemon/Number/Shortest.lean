import ReplDaemon.Number.Binary64

/-!
# The decimal text of a binary number

A number is written with the fewest decimal digits that read back as the same number, and among
those with the nearest ones; a tie goes to the larger. The digits are written positionally, however
many zeros that takes, and a whole number has no fraction.
-/

namespace ReplDaemon.Number

/-- A decimal `digits * 10 ^ exponent`. -/
structure Decimal where
  digits : Nat
  exponent : Int
  deriving Repr, DecidableEq

/-- The reals that round to a dyadic number, in quarters of its last place: from `low` to `high`,
ends included or not, all times `2 ^ exponent`. -/
structure Interval where
  low : Nat
  centre : Nat
  high : Nat
  closed : Bool
  exponent : Int

/-- The interval reaches half a place up and half a place down, but only a quarter down from a power
of two, below which the numbers lie twice as dense. A tie is read as the even neighbour, so the ends
belong to the even ones. -/
def Interval.around (d : Dyadic) : Interval where
  low :=
    if d.mantissa = leadingBit ∧ -1074 < d.exponent then 4 * d.mantissa - 1
    else 4 * d.mantissa - 2
  centre := 4 * d.mantissa
  high := 4 * d.mantissa + 2
  closed := d.mantissa % 2 = 0
  exponent := d.exponent - 2

/-- How many decimal digits a number has. -/
def digitCount (n : Nat) : Nat :=
  (Nat.toDigits 10 n).length

/-- A grid of decimals seen against an interval: `units` of the grid make `scale` times one unit of
the interval, both positive integers. -/
structure Grid where
  units : Nat
  scale : Nat

/-- The grid of step `10 ^ step` against units of `2 ^ exponent`. -/
def Grid.of (step exponent : Int) : Grid where
  units := Nat.pow 10 step.toNat * Nat.pow 2 (-exponent).toNat
  scale := Nat.pow 2 exponent.toNat * Nat.pow 10 (-step).toNat

/-- Whether the `k`-th point of the grid lies in the interval. -/
def Interval.holds (i : Interval) (g : Grid) (k : Nat) : Bool :=
  let point := k * g.units
  if i.closed then i.low * g.scale ≤ point && point ≤ i.high * g.scale
  else i.low * g.scale < point && point < i.high * g.scale

/-- The point of the grid that stands for the interval: of the two next to its centre the one inside
it, of two inside it the nearer one, and the upper one on a tie. -/
def Interval.pick? (i : Interval) (g : Grid) : Option Nat :=
  let centre := i.centre * g.scale
  let below := centre / g.units
  let above := below + 1
  match i.holds g below, i.holds g above with
  | true, true => some (if centre - below * g.units < above * g.units - centre then below else above)
  | true, false => some below
  | false, true => some above
  | false, false => none

/-- Tries grids from `step` downwards, each ten times finer than the one before. Seventeen digits
always suffice. -/
def Interval.search (i : Interval) (step : Int) : (tries : Nat) → Decimal
  | 0 => ⟨0, 0⟩
  | tries + 1 =>
    match i.pick? (.of step i.exponent) with
    | some digits => ⟨digits, step⟩
    | none => i.search (step - 1) tries

/-- The shortest decimal that reads back as a positive dyadic number. The search starts at a grid
coarser than the number itself. -/
def shortest (d : Dyadic) : Decimal :=
  let i := Interval.around d
  let g := Grid.of 0 i.exponent
  let order : Int := digitCount (i.centre * g.scale) - digitCount g.units
  i.search (order + 1) 20

/-- A decimal written positionally. -/
def Decimal.text (d : Decimal) : String :=
  let digits := Nat.toDigits 10 d.digits
  let zeros (n : Nat) : List Char := List.replicate n '0'
  if 0 ≤ d.exponent then .ofList (digits ++ zeros d.exponent.toNat)
  else
    let places := (-d.exponent).toNat
    let padded := zeros (places + 1 - digits.length) ++ digits
    let whole := padded.length - places
    .ofList (padded.take whole ++ '.' :: padded.drop whole)

/-- The text of a number. -/
def floatText (x : Float) : String :=
  match Reading.ofFloat x with
  | .nan => "NaN"
  | .infinite negative => if negative then "-inf" else "inf"
  | .finite d =>
    let magnitude := if d.mantissa = 0 then "0" else (shortest d).text
    if d.negative then "-" ++ magnitude else magnitude

/-- The number nearest to the decimal with these digits, the last `places` of them after the
point. -/
def ofDecimal (digits : Nat) (places : Nat) : Float :=
  Float.ofScientific digits true places

end ReplDaemon.Number
