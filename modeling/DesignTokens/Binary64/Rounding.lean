import DesignTokens.Binary64.Basic

/-!
Rounding a ratio of natural numbers to the nearest binary64 number, a tie going to the even
neighbour and what is too large to infinity. Counted in the smallest units, a number with exponent
step `s` is a multiple of 2ˢ; the step is the least for which the multiple fits in 53 bits, and the
bits of the result are then the step and the multiple added together.
-/
namespace DesignTokens.Binary64

/-- The whole number nearest to `num / den`, of two equally near ones the even. -/
def roundHalfEven (num den : Nat) : Nat :=
  let quotient := num / den
  let twice := 2 * (num % den)
  if den < twice || (twice = den && quotient % 2 = 1) then quotient + 1 else quotient

/-- The whole number nearest to `num / den`, of two equally near ones the larger. -/
def roundHalfUp (num den : Nat) : Nat := (2 * num + den) / (2 * den)

def exponentStep (num den : Nat) : Nat := (num * unitsPerOne / den).log2 - 52

def magnitudeBits (num den : Nat) : Nat :=
  let step := exponentStep num den
  step * Nat.pow 2 52 + roundHalfEven (num * unitsPerOne) (den * Nat.pow 2 step)

def ofRatio (negative : Bool) (num den : Nat) : Binary64 :=
  ofMagnitudeBits negative (min (magnitudeBits num den) infinityBits)

/-- The product of a magnitude with a natural number, rounded once. -/
def scale (x : Binary64) (factor : Nat) : Binary64 :=
  if x.isFinite then ofRatio x.isNegative (factor * x.units) unitsPerOne else x

end DesignTokens.Binary64
