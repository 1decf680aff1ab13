import DesignTokens.Colour.Basic
import DesignTokens.Proofs.DecimalValues
import Mathlib.Order.Fin.Basic

/-!
The intensities of channel bytes as bits. They are all rounded from multiples of one number of 53
bits over a power of two, and a larger byte has a greater intensity. The byte nearest to 255 times
an intensity is the one it came from.
-/
namespace DesignTokens

namespace Binary64

theorem log2_mul_two_pow {n : Nat} (nonzero : n ≠ 0) (k : Nat) :
    (n * 2 ^ k).log2 = n.log2 + k := by
  induction k with
  | zero => rw [Nat.pow_zero, Nat.mul_one, Nat.add_zero]
  | succ k ih =>
      have product := Nat.mul_ne_zero nonzero (Nat.two_pow_pos k).ne'
      rw [Nat.pow_succ, ← Nat.mul_assoc, Nat.mul_comm _ 2, Nat.log2_two_mul product, ih,
        Nat.add_assoc]

theorem ne_zero_of_log2 {n : Nat} (long : 52 ≤ n.log2) : n ≠ 0 := by
  rintro rfl
  rw [Nat.log2_zero] at long
  omega

/-- Over a power of two the step follows the length of the numerator. -/
theorem magnitudeBits_dyadic {n k : Nat} (long : 52 ≤ n.log2) (small : k ≤ 1022) :
    magnitudeBits n (2 ^ k) =
      (n.log2 + (1022 - k)) * Nat.pow 2 52 + roundHalfEven n (2 ^ (n.log2 - 52)) := by
  have nonzero := ne_zero_of_log2 long
  have units : unitsPerOne = 2 ^ (1022 - k + 52) * 2 ^ k := by
    unfold unitsPerOne
    generalize whole : 1074 = n
    have exponents : n = 1022 - k + 52 + k := by omega
    rw [exponents, Nat.pow_eq, Nat.pow_add]
  have step : exponentStep n (2 ^ k) = n.log2 + (1022 - k) := by
    rw [exponentStep, units, ← Nat.mul_assoc, Nat.mul_div_cancel _ (Nat.two_pow_pos k),
      log2_mul_two_pow nonzero]
    omega
  have rounded : roundHalfEven (n * unitsPerOne) (2 ^ k * Nat.pow 2 (n.log2 + (1022 - k))) =
      roundHalfEven n (2 ^ (n.log2 - 52)) := by
    have exponents : k + (n.log2 + (1022 - k)) = 1022 - k + 52 + k + (n.log2 - 52) := by omega
    rw [Nat.pow_eq, ← Nat.pow_add, exponents, Nat.pow_add, units, ← Nat.pow_add, Nat.mul_comm n,
      roundHalfEven_mul_left (Nat.two_pow_pos _)]
  rw [magnitudeBits, step, rounded]

theorem roundHalfEven_bounds (num den : Nat) :
    num / den ≤ roundHalfEven num den ∧ roundHalfEven num den ≤ num / den + 1 := by
  simp only [roundHalfEven]
  split <;> omega

/-- A multiple of 53 bits stands for as many powers of the step, also when rounding has made it one
too long. -/
theorem units_of_bits {x : Binary64} {step multiple : Nat}
    (bits : x.bits.toNat = step * 2 ^ 52 + multiple) (least : 2 ^ 52 ≤ multiple)
    (greatest : multiple ≤ 2 ^ 53) (small : step < 2044) : x.units = multiple * 2 ^ step := by
  by_cases fits : multiple < 2 ^ 53
  · have field : x.exponentField = step + 1 := by
      rw [exponentField, bits, Nat.pow_eq]
      omega
    have fraction : 2 ^ 52 + x.fraction = multiple := by
      rw [Binary64.fraction, bits, Nat.pow_eq]
      omega
    simp only [units, field, Nat.pow_eq, fraction]
  · obtain rfl : multiple = 2 ^ 53 := by omega
    have field : x.exponentField = step + 1 + 1 := by
      rw [exponentField, bits, Nat.pow_eq]
      omega
    have fraction : x.fraction = 0 := by
      rw [Binary64.fraction, bits, Nat.pow_eq]
      omega
    simp only [units, field, Nat.pow_eq, fraction, Nat.add_zero]
    rw [Nat.pow_succ 2 step]
    omega

theorem units_ofMagnitudeBits {step multiple : Nat} (least : 2 ^ 52 ≤ multiple)
    (greatest : multiple ≤ 2 ^ 53) (small : step < 2044) :
    (ofMagnitudeBits false (step * Nat.pow 2 52 + multiple)).units = multiple * 2 ^ step := by
  refine units_of_bits (toNat_bits_ofMagnitudeBits ?_ false) least greatest small
  rw [infinityBits, Nat.pow_eq]
  omega

/-- A number rounded to 53 bits, as a multiple of a power of two. -/
def leadingMultiple (n : Nat) : Nat := roundHalfEven n (2 ^ (n.log2 - 52))

theorem leadingMultiple_bounds {n : Nat} (long : 52 ≤ n.log2) :
    2 ^ 52 ≤ leadingMultiple n ∧ leadingMultiple n ≤ 2 ^ 53 := by
  have nonzero := ne_zero_of_log2 long
  obtain ⟨low, high⟩ := roundHalfEven_bounds n (2 ^ (n.log2 - 52))
  have least : 2 ^ 52 ≤ n / 2 ^ (n.log2 - 52) := by
    rw [Nat.le_div_iff_mul_le (Nat.two_pow_pos _), ← Nat.pow_add, Nat.add_sub_cancel' long]
    exact Nat.log2_self_le nonzero
  have greatest : n / 2 ^ (n.log2 - 52) < 2 ^ 53 := by
    rw [Nat.div_lt_iff_lt_mul (Nat.two_pow_pos _), ← Nat.pow_add]
    have whole : 53 + (n.log2 - 52) = n.log2 + 1 := by omega
    rw [whole]
    exact Nat.lt_log2_self
  exact ⟨least.trans low, high.trans greatest⟩

theorem units_ofRatio_dyadic {n k : Nat} (long : 52 ≤ n.log2) (short : n.log2 < 1000)
    (small : k ≤ 1022) :
    (ofRatio false n (2 ^ k)).units = leadingMultiple n * 2 ^ (n.log2 + (1022 - k)) := by
  obtain ⟨least, greatest⟩ := leadingMultiple_bounds long
  have finite : (n.log2 + (1022 - k)) * Nat.pow 2 52 + leadingMultiple n ≤ infinityBits := by
    rw [infinityBits, Nat.pow_eq]
    omega
  rw [ofRatio, magnitudeBits_dyadic long small, ← leadingMultiple, Nat.min_eq_left finite,
    units_ofMagnitudeBits least greatest (by omega)]

theorem roundHalfUp_mul_right {k : Nat} (positive : 0 < k) (num den : Nat) :
    roundHalfUp (num * k) (den * k) = roundHalfUp num den := by
  rw [roundHalfUp, ← Nat.mul_assoc, ← Nat.mul_assoc, ← Nat.add_mul,
    Nat.mul_div_mul_right _ _ positive, roundHalfUp]

end Binary64

namespace Colour
open Binary64

/-- The number nearest to 1/255, in units of 2⁻⁶⁰. -/
def stepUnits : Nat := 4521260802379792

/-- The bits of the intensity of byte `n`. -/
def intensityBits (n : Nat) : Nat :=
  if n = 0 then 0
  else
    ((n * stepUnits).log2 + 962) * Nat.pow 2 52 +
      roundHalfEven (n * stepUnits) (2 ^ ((n * stepUnits).log2 - 52))

theorem intensityBits_strictMono : StrictMono fun n : Fin 256 => intensityBits n := by
  rw [Fin.strictMono_iff_lt_succ]
  decide +kernel

theorem intensityBits_lt (byte : UInt8) : intensityBits byte.toNat < infinityBits := by
  have greatest : intensityBits 255 < infinityBits := by decide
  have least : intensityBits byte.toNat ≤ intensityBits 255 :=
    intensityBits_strictMono.monotone (Fin.le_last byte.toFin)
  exact least.trans_lt greatest

theorem magnitudeBits_stepUnits (n : Nat) :
    magnitudeBits (n * stepUnits) (2 ^ 60) = intensityBits n := by
  by_cases zero : n = 0
  · rw [zero, Nat.zero_mul, magnitudeBits_zero (Nat.two_pow_pos 60)]
    rfl
  · have wide : 2 ^ 52 ≤ n * stepUnits := by
      have whole : 2 ^ 52 ≤ stepUnits := by decide
      exact whole.trans (Nat.le_mul_of_pos_left stepUnits (Nat.pos_of_ne_zero zero))
    have long : 52 ≤ (n * stepUnits).log2 := (log2_bounds wide (Nat.lt_two_pow_self)).2.1
    rw [magnitudeBits_dyadic long (by decide), intensityBits, if_neg zero]

theorem intensity_eq_ofRatio (byte : UInt8) :
    intensity byte = ofRatio false (byte.toNat * stepUnits) (2 ^ 60) := by
  have nearest : ofRatio false 1 255 = ⟨0x3F70101010101010⟩ ∧
      (⟨0x3F70101010101010⟩ : Binary64).units * 2 ^ 60 = stepUnits * unitsPerOne := by
    decide +kernel
  obtain ⟨nearest, worth⟩ := nearest
  have finite : (⟨0x3F70101010101010⟩ : Binary64).isFinite := by decide
  have positive : (⟨0x3F70101010101010⟩ : Binary64).isNegative = false := by decide
  have ratio : byte.toNat * (⟨0x3F70101010101010⟩ : Binary64).units * 2 ^ 60 =
      byte.toNat * stepUnits * unitsPerOne := by
    rw [Nat.mul_assoc, worth, Nat.mul_assoc]
  rw [intensity, nearest, scale, if_pos finite,
    ofRatio_congr unitsPerOne_pos (Nat.two_pow_pos 60) ratio, positive]

theorem intensity_eq (byte : UInt8) :
    intensity byte = ofMagnitudeBits false (intensityBits byte.toNat) := by
  rw [intensity_eq_ofRatio, ofRatio, magnitudeBits_stepUnits,
    Nat.min_eq_left (intensityBits_lt byte).le]

theorem toNat_bits_intensity (byte : UInt8) :
    (intensity byte).bits.toNat = intensityBits byte.toNat := by
  rw [intensity_eq, toNat_bits_ofMagnitudeBits (intensityBits_lt byte).le,
    if_neg Bool.false_ne_true]

theorem isFinite_intensity (byte : UInt8) : (intensity byte).isFinite := by
  have below := intensityBits_lt byte
  rw [infinityBits, Nat.pow_eq] at below
  rw [isFinite, exponentField, toNat_bits_intensity, Nat.pow_eq]
  refine decide_eq_true ?_
  omega

theorem intensity_injective {a b : UInt8} (same : intensity a = intensity b) : a = b := by
  have bits : intensityBits a.toNat = intensityBits b.toNat := by
    rw [← toNat_bits_intensity, same, toNat_bits_intensity]
  exact UInt8.toFin_inj.1 (intensityBits_strictMono.injective bits)

theorem isNegative_intensity (byte : UInt8) : (intensity byte).isNegative = false := by
  rw [intensity_eq, isNegative_ofMagnitudeBits (intensityBits_lt byte).le]

/-- In multiples of 53 bits, 255 times an intensity is nearest to the byte. -/
theorem nearest_multiple {n : Nat} (byte : n < 256) (nonzero : n ≠ 0) :
    let units := n * stepUnits
    let product := 255 * leadingMultiple units
    52 ≤ units.log2 ∧ 52 ≤ product.log2 ∧ product.log2 + units.log2 ≤ 164 ∧
      if 2 ^ (112 - units.log2) ≤ leadingMultiple units then n = 255
      else roundHalfUp (leadingMultiple product) (2 ^ (164 - (product.log2 + units.log2))) = n := by
  revert n
  decide +kernel

theorem unitsPerOne_eq {a b : Nat} (whole : a + b = 1074) : unitsPerOne = 2 ^ a * 2 ^ b := by
  unfold unitsPerOne
  generalize 1074 = n at whole
  rw [← whole, Nat.pow_eq, Nat.pow_add]

theorem units_intensity {byte : UInt8} (long : 52 ≤ (byte.toNat * stepUnits).log2)
    (short : (byte.toNat * stepUnits).log2 ≤ 112) :
    (intensity byte).units =
      leadingMultiple (byte.toNat * stepUnits) *
        2 ^ ((byte.toNat * stepUnits).log2 + (1022 - 60)) := by
  rw [intensity_eq_ofRatio, units_ofRatio_dyadic long (by omega) (by decide)]

theorem scale_intensity {byte : UInt8} (long : 52 ≤ (byte.toNat * stepUnits).log2)
    (short : (byte.toNat * stepUnits).log2 ≤ 112) :
    (intensity byte).scale 255 =
      ofRatio false (255 * leadingMultiple (byte.toNat * stepUnits))
        (2 ^ (112 - (byte.toNat * stepUnits).log2)) := by
  have worth := units_intensity long short
  generalize byte.toNat * stepUnits = units at *
  rw [scale, if_pos (isFinite_intensity byte), isNegative_intensity]
  apply ofRatio_congr unitsPerOne_pos (Nat.two_pow_pos _)
  rw [worth, unitsPerOne_eq (show 112 - units.log2 + (units.log2 + (1022 - 60)) = 1074 by omega)]
  generalize 2 ^ (units.log2 + (1022 - 60)) = shift
  ring

/-- Making an intensity a byte again undoes both roundings. -/
theorem alphaByte_intensity (byte : UInt8) : alphaByte (intensity byte) = byte := by
  by_cases zero : byte = 0
  · subst zero
    decide +kernel
  have nonzero : byte.toNat ≠ 0 := fun h => zero (UInt8.toNat_inj.1 h)
  obtain ⟨long, longProduct, short, nearest⟩ := nearest_multiple byte.toNat_lt nonzero
  have worth := units_intensity long (by omega)
  have scaled := scale_intensity long (by omega)
  generalize byte.toNat * stepUnits = units at *
  have finite := isFinite_intensity byte
  have number : (intensity byte).isNaN = false := by
    have field : (intensity byte).exponentField ≠ 2047 := of_decide_eq_true finite
    simp [isNaN, field]
  have full : unitsPerOne ≤ (intensity byte).units ↔
      2 ^ (112 - units.log2) ≤ leadingMultiple units := by
    rw [worth, unitsPerOne_eq (show 112 - units.log2 + (units.log2 + (1022 - 60)) = 1074 by omega),
      Nat.mul_le_mul_right_iff (Nat.two_pow_pos _)]
  rw [alphaByte, number, isNegative_intensity, if_neg (by decide), finite, scaled]
  simp only [Bool.not_true, Bool.false_or, decide_eq_true_eq, full]
  split at nearest
  · rename_i reaches
    rw [if_pos reaches, ← UInt8.toNat_inj, nearest]
    rfl
  · rename_i below
    have worthScaled := units_ofRatio_dyadic longProduct (by omega)
      (show 112 - units.log2 ≤ 1022 by omega)
    have rest := unitsPerOne_eq (show 164 - ((255 * leadingMultiple units).log2 + units.log2) +
      ((255 * leadingMultiple units).log2 + (1022 - (112 - units.log2))) = 1074 by omega)
    rw [if_neg below, worthScaled, rest, roundHalfUp_mul_right (Nat.two_pow_pos _), nearest,
      UInt8.ofNat_toNat]

end Colour

end DesignTokens
