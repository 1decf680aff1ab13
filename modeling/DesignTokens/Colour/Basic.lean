import DesignTokens.Binary64.Rounding

/-!
Colours of four channel bytes. The intensity of a channel is its byte times the binary64 number
nearest to 1/255, rounded once; an alpha override goes the other way, from a number to the nearest
byte.
-/
namespace DesignTokens

structure Colour where
  red : UInt8
  green : UInt8
  blue : UInt8
  alpha : UInt8
deriving DecidableEq, Repr, Inhabited

namespace Colour

def ofRGB (red green blue : UInt8) : Colour := ⟨red, green, blue, 255⟩

def isOpaque (c : Colour) : Bool := c.alpha = 255

def intensity (channel : UInt8) : Binary64 := (Binary64.ofRatio false 1 255).scale channel.toNat

/-- The byte nearest to 255 times a number between 0 and 1. What lies outside goes to the nearer
end, and what is not a number goes to 0. -/
def alphaByte (alpha : Binary64) : UInt8 :=
  if alpha.isNaN || alpha.isNegative then 0
  else if !alpha.isFinite || Binary64.unitsPerOne ≤ alpha.units then 255
  else UInt8.ofNat (Binary64.roundHalfUp (alpha.scale 255).units Binary64.unitsPerOne)

def withAlpha (c : Colour) (alpha : Binary64) : Colour := { c with alpha := alphaByte alpha }

end Colour

end DesignTokens
