import DesignTokens.Binary64.Rounding
import DesignTokens.Text.AsciiCase

/-!
Reading a number from decimal text: an optional sign, digits with an optional point among them or
at either end, and an optional exponent; or, in any case of letters, a word for infinity or for
what is not a number. The result is the number nearest to the decimal written.
-/
namespace DesignTokens

/-- The decimal number `coefficient · 10 ^ exponent`. -/
structure Decimal where
  coefficient : Nat
  exponent : Int
deriving DecidableEq, Repr, Inhabited

namespace Binary64

def isDigit (c : Char) : Bool := c.isDigit

def digitValue (c : Char) : Nat := c.toNat - '0'.toNat

def digitsValue (cs : List Char) : Nat := cs.foldl (fun n c => 10 * n + digitValue c) 0

/-- The number of decimal digits of a positive number. -/
def decimalLength (n : Nat) : Nat :=
  let guess := n.log2 * 30103 / 100000
  if Nat.pow 10 (guess + 1) ≤ n then guess + 2
  else if Nat.pow 10 guess ≤ n then guess + 1
  else guess

/-- The number nearest to a decimal. Decimals of more than 310 digits before the point are infinite
and those with 330 zeros behind it vanish, so that neither needs its power of ten. -/
def ofDecimal (negative : Bool) (d : Decimal) : Binary64 :=
  if d.coefficient = 0 then ofMagnitudeBits negative 0
  else
    let size := decimalLength d.coefficient + d.exponent
    if 310 < size then infinity negative
    else if size < -330 then ofMagnitudeBits negative 0
    else
      match d.exponent with
      | .ofNat e => ofRatio negative (d.coefficient * Nat.pow 10 e) 1
      | .negSucc e => ofRatio negative d.coefficient (Nat.pow 10 (e + 1))

def readExponent? : List Char → Option Int
  | [] => some 0
  | c :: rest =>
    if c = 'e' || c = 'E' then
      let (negative, digits) :=
        match rest with
        | '-' :: ds => (true, ds)
        | '+' :: ds => (false, ds)
        | ds => (false, ds)
      if digits.isEmpty || !digits.all isDigit then none
      else if negative then some (-(digitsValue digits : Int)) else some (digitsValue digits)
    else none

def readDecimal? (cs : List Char) : Option Decimal :=
  let whole := cs.takeWhile isDigit
  let (decimals, rest) :=
    match cs.dropWhile isDigit with
    | '.' :: r => (r.takeWhile isDigit, r.dropWhile isDigit)
    | r => ([], r)
  if whole.isEmpty && decimals.isEmpty then none
  else (readExponent? rest).map fun e =>
    ⟨digitsValue (whole ++ decimals), e - decimals.length⟩

def readMagnitude? (negative : Bool) (cs : List Char) : Option Binary64 :=
  let word := Text.foldAscii cs
  if word = "inf".toList || word = "infinity".toList then some (infinity negative)
  else if word = "nan".toList then some (nan negative)
  else (readDecimal? cs).map (ofDecimal negative)

def read? : List Char → Option Binary64
  | '-' :: cs => readMagnitude? true cs
  | '+' :: cs => readMagnitude? false cs
  | cs => readMagnitude? false cs

/-- Reading that accepts finite numbers only. -/
def readFinite? (cs : List Char) : Option Binary64 := (read? cs).filter isFinite

end Binary64

end DesignTokens
