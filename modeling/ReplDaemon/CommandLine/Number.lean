/-!
# Numbers on the command line

Numbers are written in decimal digits, perhaps behind a sign.
-/

namespace ReplDaemon.CommandLine

/-- The value of one digit or more. -/
def digits? : List Char → Option Nat
  | [] => none
  | cs =>
    if cs.all Char.isDigit then some (cs.foldl (fun n c => 10 * n + (c.toNat - '0'.toNat)) 0)
    else none

/-- A whole number between two bounds; both signs may be written. -/
def integer? (least most : Int) (s : String) : Option Int := do
  let n : Int ← match s.toList with
    | '-' :: cs => (digits? cs).map fun n => -(n : Int)
    | '+' :: cs => (digits? cs).map Int.ofNat
    | cs => (digits? cs).map Int.ofNat
  if least ≤ n && n ≤ most then some n else none

/-- A whole number of 64 bits without a sign, or with a plus. -/
def natural? (s : String) : Option Nat := do
  let n ← match s.toList with
    | '+' :: cs => digits? cs
    | cs => digits? cs
  if n < UInt64.size then some n else none

end ReplDaemon.CommandLine
