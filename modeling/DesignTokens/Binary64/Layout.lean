import DesignTokens.Binary64.Shortest

/-!
Laying out the digits of a number. A layout says for which positions of the decimal point the
number is written out in full, and whether a whole number keeps a fraction of one zero; all other
numbers are written with one digit before the point and an exponent.
-/
namespace DesignTokens.Binary64

structure Layout where
  writtenOut : Int → Bool
  keepsFraction : Bool

/-- Digits in full, with the point `position` places behind the first of them. -/
def Layout.inFull (layout : Layout) (digits : List Char) (position : Int) : List Char :=
  if position ≤ 0 then
    "0.".toList ++ List.replicate (-position).toNat '0' ++ digits
  else
    let size := position.toNat
    if size < digits.length then digits.take size ++ '.' :: digits.drop size
    else
      digits ++ List.replicate (size - digits.length) '0' ++
        (if layout.keepsFraction then ".0".toList else [])

def withExponent (digits : List Char) (position : Int) : List Char :=
  let mantissa :=
    match digits with
    | [] => []
    | [d] => [d]
    | d :: rest => d :: '.' :: rest
  mantissa ++ 'e' :: (toString (position - 1)).toList

def Layout.magnitude (layout : Layout) (x : Binary64) : List Char :=
  if x.isZero then if layout.keepsFraction then "0.0".toList else "0".toList
  else
    let d := Decimal.trimZeros 1100 x.shortest
    let digits := Nat.toDigits 10 d.coefficient
    let position := digits.length + d.exponent
    if layout.writtenOut position then layout.inFull digits position
    else withExponent digits position

def Layout.write (layout : Layout) (x : Binary64) : List Char :=
  if x.isNaN then "NaN".toList
  else
    let magnitude := if x.isFinite then layout.magnitude x else "inf".toList
    if x.isNegative then '-' :: magnitude else magnitude

end DesignTokens.Binary64
