namespace ExpressionChecker
namespace Text

/-!
# Sets of characters given by intervals of code points

A property of characters that a standard defines by a table is kept here as an ascending list of
disjoint intervals of code points.  Membership walks the list from the left and stops at the first
interval that starts above the point, so the common small code points are decided in a few steps.
-/

/-- The code points from `first` to `last`, both included. -/
structure Interval where
  first : Nat
  last : Nat

namespace Interval

/-- Whether a code point lies in one of the intervals of an ascending list. -/
def covers : List Interval → Nat → Bool
  | [], _ => false
  | interval :: later, point =>
    if point < interval.first then false
    else if point ≤ interval.last then true
    else covers later point

end Interval
end Text
end ExpressionChecker
