import DesignTokens.Binary64.Decimal

/-!
Writing a number with the fewest decimal digits that read back as the same number. For one digit,
two digits and so on, the two decimals of that length on either side of the number are tried; the
first length at which one of them reads back wins, and of two that do the nearer, or on a tie the
larger. Should none of up to seventeen digits read back, the exact decimal stands in.
-/
namespace DesignTokens

namespace Binary64

def readsBack (x : Binary64) (d : Decimal) : Bool := ofDecimal x.isNegative d = x

/-- The number of digits before the point; zero and below counts the zeros behind it. -/
def pointPosition (x : Binary64) : Int :=
  (decimalLength (x.units * Nat.pow 10 400 / unitsPerOne) : Int) - 400

/-- The ratio of the magnitude of `x` to `10 ^ e`. -/
def ratioToPower (x : Binary64) : Int → Nat × Nat
  | .ofNat e => (x.units, unitsPerOne * Nat.pow 10 e)
  | .negSucc e => (x.units * Nat.pow 10 (e + 1), unitsPerOne)

/-- The decimals of `n` digits next to `x`, the better one first. -/
def neighbours (x : Binary64) (n : Nat) : List Decimal :=
  let e := x.pointPosition - n
  let (num, den) := x.ratioToPower e
  let below : Decimal := ⟨num / den, e⟩
  let above : Decimal := ⟨num / den + 1, e⟩
  if 2 * (num % den) < den then [below, above] else [above, below]

/-- Every finite magnitude is a decimal: one unit is 5¹⁰⁷⁴ · 10⁻¹⁰⁷⁴. -/
def exactDecimal (x : Binary64) : Decimal := ⟨x.units * Nat.pow 5 1074, -1074⟩

def shortest (x : Binary64) : Decimal :=
  let candidates := (List.range 17).flatMap fun n => x.neighbours (n + 1)
  (candidates.find? x.readsBack).getD x.exactDecimal

end Binary64

/-- Removes zeros at the end of the coefficient, as many as `fuel` allows. -/
def Decimal.trimZeros : (fuel : Nat) → Decimal → Decimal
  | 0, d => d
  | fuel + 1, d =>
    if d.coefficient ≠ 0 && d.coefficient % 10 = 0 then
      trimZeros fuel ⟨d.coefficient / 10, d.exponent + 1⟩
    else d

end DesignTokens
