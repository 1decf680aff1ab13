/-!
Binary64 numbers as their 64 bits: a sign, eleven bits of exponent and 52 bits of fraction. Every
finite magnitude is a whole number of units of 2⁻¹⁰⁷⁴, the smallest positive number, so that all
arithmetic on them is arithmetic of natural numbers. Nothing here uses the machine's own floating
point.
-/
namespace DesignTokens

structure Binary64 where
  bits : UInt64
deriving DecidableEq, Inhabited

namespace Binary64

def exponentField (x : Binary64) : Nat := x.bits.toNat / Nat.pow 2 52 % 2048

def fraction (x : Binary64) : Nat := x.bits.toNat % Nat.pow 2 52

def isNegative (x : Binary64) : Bool := Nat.pow 2 63 ≤ x.bits.toNat

def isFinite (x : Binary64) : Bool := x.exponentField ≠ 2047

def isNaN (x : Binary64) : Bool := x.exponentField = 2047 && x.fraction ≠ 0

/-- The magnitude of a finite number, counted in units of 2⁻¹⁰⁷⁴. -/
def units (x : Binary64) : Nat :=
  match x.exponentField with
  | 0 => x.fraction
  | e + 1 => (Nat.pow 2 52 + x.fraction) * Nat.pow 2 e

/-- How many of the smallest units make 1. -/
def unitsPerOne : Nat := Nat.pow 2 1074

def isZero (x : Binary64) : Bool := x.bits.toNat % Nat.pow 2 63 = 0

/-- The bits of infinity, above those of every finite magnitude. -/
def infinityBits : Nat := 2047 * Nat.pow 2 52

def ofMagnitudeBits (negative : Bool) (magnitude : Nat) : Binary64 :=
  ⟨UInt64.ofNat (if negative then Nat.pow 2 63 + magnitude else magnitude)⟩

def zero : Binary64 := ⟨0⟩

def infinity (negative : Bool) : Binary64 := ofMagnitudeBits negative infinityBits

def nan (negative : Bool) : Binary64 := ofMagnitudeBits negative (infinityBits + Nat.pow 2 51)

/-- Equality of values: zero has two spellings, and what is not a number equals nothing. -/
def sameValue (x y : Binary64) : Bool :=
  !x.isNaN && !y.isNaN && (x = y || (x.isZero && y.isZero))

/-- Position in the total order of all bit patterns: from negative to positive, with the patterns
that are not numbers at both ends and negative zero just below zero. -/
def orderKey (x : Binary64) : Nat :=
  if x.isNegative then Nat.pow 2 64 - 1 - x.bits.toNat else Nat.pow 2 63 + x.bits.toNat

end Binary64

end DesignTokens
