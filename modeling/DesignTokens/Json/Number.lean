import DesignTokens.Binary64.Decimal

/-!
JSON number literals: an optional minus sign, a whole number without needless zeros in front, an
optional fraction and an optional exponent. A literal is in range when its leading digits, as many
as fit into 64 bits, and the power of ten they are to be multiplied with are each rounded to
binary64 and their product is still finite.
-/
namespace DesignTokens.Json

open Binary64 (isDigit digitsValue)

/-- A literal taken apart; the exponent is that of the last digit before the point. -/
structure NumberParts where
  whole : List Char
  decimals : List Char
  exponent : Int

/-- The value of the leading digits while it fits into 64 bits, and the digits left over. -/
def leadingValue (value : Nat) : List Char → Nat × List Char
  | [] => (value, [])
  | d :: rest =>
    let longer := digitsValue [d] + 10 * value
    if longer < Nat.pow 2 64 then leadingValue longer rest else (value, d :: rest)

def NumberParts.inRange (p : NumberParts) : Bool :=
  let (front, dropped) := leadingValue 0 p.whole
  let (value, unread) := leadingValue front p.decimals
  let exponent := p.exponent + dropped.length - (p.decimals.length - unread.length)
  if value = 0 || exponent < 0 then true
  else if 308 < exponent then false
  else
    let factor := Binary64.ofRatio false value 1
    let power := Binary64.ofRatio false (Nat.pow 10 exponent.toNat) 1
    let product :=
      Binary64.ofRatio false (factor.units * power.units)
        (Binary64.unitsPerOne * Binary64.unitsPerOne)
    product.isFinite

/-- Digits from the front, at least one. -/
def takeDigits? (cs : List Char) : Option (List Char × List Char) :=
  let digits := cs.takeWhile isDigit
  if digits.isEmpty then none else some (digits, cs.dropWhile isDigit)

def takeWhole? : List Char → Option (List Char × List Char)
  | '0' :: rest => if (rest.takeWhile isDigit).isEmpty then some (['0'], rest) else none
  | cs => takeDigits? cs

def takeDecimals? : List Char → Option (List Char × List Char)
  | '.' :: rest => takeDigits? rest
  | cs => some ([], cs)

def takeExponent? : List Char → Option (Int × List Char)
  | [] => some (0, [])
  | c :: rest =>
    if c = 'e' || c = 'E' then
      match rest with
      | '-' :: ds => (takeDigits? ds).map fun (digits, r) => (-(digitsValue digits : Int), r)
      | '+' :: ds => (takeDigits? ds).map fun (digits, r) => ((digitsValue digits : Int), r)
      | ds => (takeDigits? ds).map fun (digits, r) => ((digitsValue digits : Int), r)
    else some (0, c :: rest)

/-- Takes a literal from the front of the text, its sign already removed. -/
def takeNumber? (cs : List Char) : Option (NumberParts × List Char) := do
  let (whole, afterWhole) ← takeWhole? cs
  let (decimals, afterDecimals) ← takeDecimals? afterWhole
  let (exponent, rest) ← takeExponent? afterDecimals
  return (⟨whole, decimals, exponent⟩, rest)

end DesignTokens.Json
