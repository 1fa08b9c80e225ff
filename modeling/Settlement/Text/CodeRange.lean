/-!
# Ranges of code points

A property of characters is kept as the ordered list of the ranges of code points that have it.
-/

namespace Settlement.Text

/-- Code points from the first to the last, both included, in ascending order. -/
abbrev CodeRanges := Array (Nat × Nat)

namespace CodeRanges

/-- Search between two positions of the table, halving it at most `fuel` times. -/
def search (ranges : CodeRanges) (code : Nat) : Nat → Nat → Nat → Bool
  | 0, _, _ => false
  | fuel + 1, low, high =>
    if low < high then
      let middle := (low + high) / 2
      match ranges[middle]? with
      | none => false
      | some (first, last) =>
        if code < first then search ranges code fuel low middle
        else if last < code then search ranges code fuel (middle + 1) high
        else true
    else false

/-- The character lies in one of the ranges. -/
def contains (ranges : CodeRanges) (c : Char) : Bool :=
  search ranges c.toNat (ranges.size + 1) 0 ranges.size

end CodeRanges

end Settlement.Text
