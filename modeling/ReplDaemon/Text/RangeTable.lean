/-!
# Sets of code points given by ranges

A character class of the Unicode standard is stored as its ranges of code points, in order, and
looked up by halving.
-/

namespace ReplDaemon.Text

/-- Inclusive ranges of code points, ascending and apart from each other. -/
structure RangeTable where
  ranges : Array (Nat × Nat)

namespace RangeTable

/-- Looks for `code` among the ranges with index from `lo` to below `hi`, in at most `steps`
halvings. -/
def search (table : RangeTable) (code : Nat) : (steps lo hi : Nat) → Bool
  | 0, _, _ => false
  | steps + 1, lo, hi =>
    let mid := (lo + hi) / 2
    match table.ranges[mid]? with
    | none => false
    | some (first, last) =>
      if hi ≤ lo then false
      else if code < first then table.search code steps lo mid
      else if last < code then table.search code steps (mid + 1) hi
      else true

/-- Whether `code` lies in one of the ranges. Each step halves what is left, so a table of fewer
than `2 ^ 16` ranges needs no more than sixteen and one of them. -/
def contains (table : RangeTable) (code : Nat) : Bool :=
  table.search code 17 0 table.ranges.size

end RangeTable

end ReplDaemon.Text
