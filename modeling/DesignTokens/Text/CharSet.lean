/-!
Sets of characters given by their boundaries: the ascending code points at which membership
changes. Counting starts outside the set, so a character belongs to it exactly when the number of
boundaries at or below its code point is odd.
-/
namespace DesignTokens.Text

structure CharSet where
  bounds : List Nat

namespace CharSet

/-- Walks up the boundaries, changing sides at each one that `n` has reached. -/
def sideOf (inside : Bool) : List Nat → Nat → Bool
  | [], _ => inside
  | b :: rest, n => if n < b then inside else sideOf (!inside) rest n

def contains (s : CharSet) (c : Char) : Bool := sideOf false s.bounds c.toNat

end CharSet

end DesignTokens.Text
