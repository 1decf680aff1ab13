import DesignTokens.Binary64.Shortest
import Mathlib.Algebra.Order.Field.Rat
import Mathlib.Tactic.FieldSimp
import Mathlib.Tactic.NormNum
import Mathlib.Tactic.Ring

/-!
What decimals are worth. Rounding depends on the value of a ratio and not on its terms, and every
finite number is what its shortest decimal rounds to; the value of that decimal and the sign
therefore determine the number.
-/
namespace DesignTokens

/-- The rational number that a decimal spells. -/
def Decimal.value (d : Decimal) : ℚ := d.coefficient * (10 : ℚ) ^ d.exponent

namespace Binary64

theorem roundHalfEven_mul_left {k : Nat} (positive : 0 < k) (num den : Nat) :
    roundHalfEven (k * num) (k * den) = roundHalfEven num den := by
  have halves (a b : Nat) : k * a < 2 * (k * b) ↔ a < 2 * b := by
    rw [Nat.mul_left_comm, Nat.mul_lt_mul_left positive]
  have ties (a b : Nat) : 2 * (k * a) = k * b ↔ 2 * a = b := by
    rw [Nat.mul_left_comm, Nat.mul_right_inj positive.ne']
  simp only [roundHalfEven, Nat.mul_div_mul_left num den positive, Nat.mul_mod_mul_left, halves,
    ties]

theorem roundHalfEven_multiple {den : Nat} (positive : 0 < den) (n : Nat) :
    roundHalfEven (n * den) den = n := by
  simp only [roundHalfEven, Nat.mul_div_cancel n positive, Nat.mul_mod_left]
  simp [positive.ne]

theorem magnitudeBits_mul_left {k : Nat} (positive : 0 < k) (num den : Nat) :
    magnitudeBits (k * num) (k * den) = magnitudeBits num den := by
  have step : exponentStep (k * num) (k * den) = exponentStep num den := by
    rw [exponentStep, Nat.mul_assoc, Nat.mul_div_mul_left _ _ positive, exponentStep]
  simp only [magnitudeBits, step, Nat.mul_assoc, roundHalfEven_mul_left positive]

/-- Equal ratios round alike. -/
theorem ofRatio_congr {num den num' den' : Nat} (hden : 0 < den) (hden' : 0 < den')
    (same : num * den' = num' * den) (negative : Bool) :
    ofRatio negative num den = ofRatio negative num' den' := by
  have bits : magnitudeBits num den = magnitudeBits num' den' := by
    calc magnitudeBits num den
        = magnitudeBits (den' * num) (den' * den) := (magnitudeBits_mul_left hden' _ _).symm
      _ = magnitudeBits (den * num') (den * den') := by
          rw [Nat.mul_comm den' num, same, Nat.mul_comm num' den, Nat.mul_comm den' den]
      _ = magnitudeBits num' den' := magnitudeBits_mul_left hden _ _
  rw [ofRatio, ofRatio, bits]

section Finite
variable {x : Binary64}

theorem unitsPerOne_pos : 0 < unitsPerOne := by
  unfold unitsPerOne
  generalize 1074 = n
  exact Nat.two_pow_pos n

theorem fraction_lt (x : Binary64) : x.fraction < 2 ^ 52 := Nat.mod_lt _ (Nat.two_pow_pos 52)

theorem fields_eq (x : Binary64) :
    x.bits.toNat % 2 ^ 63 = x.exponentField * 2 ^ 52 + x.fraction := by
  have := x.bits.toNat_lt
  simp only [exponentField, fraction, Nat.pow_eq]
  omega

theorem exponentField_lt (finite : x.isFinite) : x.exponentField < 2047 := by
  have range : x.exponentField < 2048 := Nat.mod_lt _ (by decide)
  have finite : x.exponentField ≠ 2047 := of_decide_eq_true finite
  omega

theorem units_lt (x : Binary64) : x.units < Nat.pow 2 (x.exponentField + 52) := by
  have fraction := fraction_lt x
  rw [Nat.pow_eq]
  unfold units
  split
  · rename_i field
    rwa [field, Nat.zero_add]
  · rename_i e field
    have mantissa : 2 ^ 52 + x.fraction < 2 ^ 53 := by omega
    calc (2 ^ 52 + x.fraction) * 2 ^ e < 2 ^ 53 * 2 ^ e :=
          Nat.mul_lt_mul_of_pos_right mantissa (Nat.two_pow_pos e)
      _ = 2 ^ (x.exponentField + 52) := by
          rw [← Nat.pow_add, field]
          congr 1
          omega

/-- The bits of a number are recovered from its units: the step is its exponent less one, or zero
where the exponent is. -/
theorem magnitudeBits_units (x : Binary64) :
    magnitudeBits x.units unitsPerOne = x.bits.toNat % 2 ^ 63 := by
  have fraction := fraction_lt x
  have scaled (den : Nat) : roundHalfEven (x.units * unitsPerOne) (unitsPerOne * den) =
      roundHalfEven x.units den := by
    rw [Nat.mul_comm x.units, roundHalfEven_mul_left unitsPerOne_pos]
  rw [fields_eq, magnitudeBits, exponentStep, Nat.mul_div_cancel _ unitsPerOne_pos, scaled]
  unfold units
  split
  · rename_i field
    have step : x.fraction.log2 - 52 = 0 := by
      rcases Nat.eq_zero_or_pos x.fraction with zero | positive
      · rw [zero, Nat.log2_zero]
      · have := (Nat.log2_lt positive.ne').2 fraction
        omega
    rw [step, field]
    simpa using roundHalfEven_multiple Nat.one_pos x.fraction
  · rename_i e field
    have log : ((2 ^ 52 + x.fraction) * 2 ^ e).log2 = 52 + e := by
      have positive : 0 < (2 ^ 52 + x.fraction) * 2 ^ e :=
        Nat.mul_pos (Nat.add_pos_left (Nat.two_pow_pos 52) _) (Nat.two_pow_pos e)
      refine (Nat.log2_eq_iff positive.ne').2 ⟨?_, ?_⟩
      · rw [Nat.pow_add]
        exact Nat.mul_le_mul_right _ (Nat.le_add_right _ _)
      · rw [show 52 + e + 1 = 53 + e by omega, Nat.pow_add]
        exact Nat.mul_lt_mul_of_pos_right (by omega) (Nat.two_pow_pos e)
    simp only [Nat.pow_eq, log, Nat.add_sub_cancel_left, field,
      roundHalfEven_multiple (Nat.two_pow_pos e)]
    omega

theorem ofRatio_units (finite : x.isFinite) : ofRatio x.isNegative x.units unitsPerOne = x := by
  have exponent := exponentField_lt finite
  have fraction := fraction_lt x
  have small : x.bits.toNat % 2 ^ 63 ≤ infinityBits := by
    rw [fields_eq, infinityBits, Nat.pow_eq]
    omega
  rw [ofRatio, magnitudeBits_units, Nat.min_eq_left small, ofMagnitudeBits]
  have bits : (if x.isNegative then Nat.pow 2 63 + x.bits.toNat % 2 ^ 63
      else x.bits.toNat % 2 ^ 63) = x.bits.toNat := by
    have := x.bits.toNat_lt
    simp only [isNegative, decide_eq_true_eq, Nat.pow_eq]
    split <;> omega
  rw [bits, UInt64.ofNat_toNat]

theorem decimalLength_bounds (n : Nat) :
    n.log2 * 30103 / 100000 ≤ decimalLength n ∧
      decimalLength n ≤ n.log2 * 30103 / 100000 + 2 := by
  simp only [decimalLength]
  split
  · omega
  · split <;> omega

theorem log2_bounds {n low high : Nat} (lower : Nat.pow 2 low ≤ n) (upper : n < Nat.pow 2 high) :
    n ≠ 0 ∧ low ≤ n.log2 ∧ n.log2 < high := by
  have nonzero : n ≠ 0 := (Nat.lt_of_lt_of_le (Nat.two_pow_pos low) lower).ne'
  exact ⟨nonzero, (Nat.le_log2 nonzero).2 lower, (Nat.log2_lt nonzero).2 upper⟩

theorem mul_lt_pow {a b m n : Nat} (ha : a < Nat.pow 2 m) (hb : b < Nat.pow 2 n) :
    a * b < Nat.pow 2 (m + n) := by
  rw [Nat.pow_eq, Nat.pow_add]
  exact Nat.mul_lt_mul'' ha hb

/-- The coefficient of the exact decimal has a power of five that, times one unit, is a power of
ten. -/
theorem exactDecimal_eq (x : Binary64) :
    ∃ power, x.exactDecimal = ⟨x.units * power, .negSucc 1073⟩ ∧
      Nat.pow 10 (1073 + 1) = power * unitsPerOne ∧
      Nat.pow 2 2493 ≤ power ∧ power < Nat.pow 2 2494 :=
  ⟨Nat.pow 5 1074, rfl, by decide +kernel, by decide +kernel, by decide +kernel⟩

theorem magnitudeBits_zero {den : Nat} (positive : 0 < den) : magnitudeBits 0 den = 0 := by
  have none := roundHalfEven_multiple positive 0
  rw [Nat.zero_mul] at none
  rw [magnitudeBits, exponentStep, Nat.zero_mul, Nat.zero_div, Nat.log2_zero, Nat.zero_sub,
    Nat.zero_mul, Nat.zero_add, Nat.pow_eq, Nat.pow_zero, Nat.mul_one, none]

theorem toNat_bits_ofMagnitudeBits {magnitude : Nat} (small : magnitude ≤ infinityBits)
    (negative : Bool) :
    (ofMagnitudeBits negative magnitude).bits.toNat =
      if negative then 2 ^ 63 + magnitude else magnitude := by
  rw [infinityBits, Nat.pow_eq] at small
  rw [ofMagnitudeBits, UInt64.toNat_ofNat', Nat.pow_eq]
  refine Nat.mod_eq_of_lt ?_
  split <;> omega

theorem isNegative_ofMagnitudeBits {magnitude : Nat} (small : magnitude ≤ infinityBits)
    (negative : Bool) : (ofMagnitudeBits negative magnitude).isNegative = negative := by
  rw [isNegative, toNat_bits_ofMagnitudeBits small, Nat.pow_eq]
  rw [infinityBits, Nat.pow_eq] at small
  cases negative with
  | false => exact decide_eq_false (by rw [if_neg Bool.false_ne_true]; omega)
  | true => exact decide_eq_true (by rw [if_pos rfl]; omega)

theorem ofMagnitudeBits_of_units (finite : x.isFinite) (zero : x.units = 0) :
    ofMagnitudeBits x.isNegative 0 = x := by
  have rounded := ofRatio_units finite
  rwa [zero, ofRatio, magnitudeBits_zero unitsPerOne_pos, Nat.zero_min] at rounded

theorem ofDecimal_exactDecimal (finite : x.isFinite) :
    ofDecimal x.isNegative x.exactDecimal = x := by
  obtain ⟨power, exact, ten, lower, upper⟩ := exactDecimal_eq x
  rw [exact]
  rcases Nat.eq_zero_or_pos x.units with zero | positive
  · rw [zero, Nat.zero_mul, ofDecimal, if_pos rfl, ofMagnitudeBits_of_units finite zero]
  · have field := exponentField_lt finite
    have length := decimalLength_bounds (x.units * power)
    have product := mul_lt_pow (units_lt x) upper
    obtain ⟨nonzero, below, above⟩ :=
      log2_bounds (lower.trans (Nat.le_mul_of_pos_left power positive)) product
    -- The size is within the range in which the power of ten is computed.
    have notLarge : ¬ 310 < (decimalLength (x.units * power) + .negSucc 1073 : Int) := by omega
    have notSmall : ¬ (decimalLength (x.units * power) + .negSucc 1073 : Int) < -330 := by omega
    have rounds : ofDecimal x.isNegative ⟨x.units * power, .negSucc 1073⟩ =
        ofRatio x.isNegative (x.units * power) (Nat.pow 10 (1073 + 1)) := by
      rw [ofDecimal, if_neg nonzero]
      simp only
      rw [if_neg notLarge, if_neg notSmall]
    have den : 0 < power * unitsPerOne :=
      Nat.mul_pos (Nat.pos_of_ne_zero (right_ne_zero_of_mul nonzero)) unitsPerOne_pos
    rw [rounds, ten]
    refine (ofRatio_congr den unitsPerOne_pos ?_ _).trans (ofRatio_units finite)
    exact Nat.mul_assoc _ _ _

/-- A finite number is what its shortest decimal rounds to. -/
theorem ofDecimal_shortest (finite : x.isFinite) : ofDecimal x.isNegative x.shortest = x := by
  unfold shortest
  simp only
  cases found : ((List.range 17).flatMap fun n => x.neighbours (n + 1)).find? x.readsBack with
  | none => exact ofDecimal_exactDecimal finite
  | some d =>
      have reads : x.readsBack d := List.find?_some found
      exact of_decide_eq_true reads

theorem isZero_signedZero (negative : Bool) : (ofMagnitudeBits negative 0).isZero := by
  cases negative <;> decide

theorem isFinite_infinity (negative : Bool) : (infinity negative).isFinite = false := by
  cases negative <;> decide

/-- What is finite and not zero was rounded from a ratio with the value of its decimal. -/
theorem exists_ratio_of_ofDecimal {negative : Bool} {d : Decimal} (h : ofDecimal negative d = x)
    (finite : x.isFinite) (nonzero : x.isZero = false) :
    d.value ≠ 0 ∧ ∃ num den : Nat, 0 < den ∧ (num : ℚ) / den = d.value ∧
      ofRatio negative num den = x := by
  unfold ofDecimal at h
  split at h
  · rw [← h, isZero_signedZero] at nonzero
    cases nonzero
  · rename_i coefficient
    have worth : d.value ≠ 0 :=
      mul_ne_zero (Nat.cast_ne_zero.2 coefficient) (zpow_ne_zero _ (by norm_num))
    refine ⟨worth, ?_⟩
    simp only at h
    split at h
    · rw [← h, isFinite_infinity] at finite
      cases finite
    · split at h
      · rw [← h, isZero_signedZero] at nonzero
        cases nonzero
      · split at h
        · rename_i e exponent
          refine ⟨_, 1, Nat.one_pos, ?_, h⟩
          simp [Decimal.value, exponent]
        · rename_i e exponent
          refine ⟨_, _, Nat.pow_pos (by decide), ?_, h⟩
          simp [Decimal.value, exponent, div_eq_mul_inv]

theorem eq_of_isZero {x y : Binary64} (hx : x.isZero) (hy : y.isZero)
    (sign : x.isNegative = y.isNegative) : x = y := by
  obtain ⟨x⟩ := x
  obtain ⟨y⟩ := y
  have boundX := x.toNat_lt
  have boundY := y.toNat_lt
  simp only [isZero, isNegative, decide_eq_true_eq, decide_eq_decide, Nat.pow_eq] at hx hy sign
  have bits : x.toNat = y.toNat := by omega
  exact congrArg Binary64.mk (UInt64.toNat_inj.1 bits)

/-- What a finite number is worth without its sign, as its shortest decimal says. -/
def magnitudeValue (x : Binary64) : ℚ := if x.isZero then 0 else x.shortest.value

theorem magnitudeValue_eq_zero_iff (finite : x.isFinite) : x.magnitudeValue = 0 ↔ x.isZero := by
  unfold magnitudeValue
  split
  · rename_i zero
    simp [zero]
  · rename_i nonzero
    have nonzero := eq_false_of_ne_true nonzero
    simp [(exists_ratio_of_ofDecimal (ofDecimal_shortest finite) finite nonzero).1, nonzero]

/-- A finite number is determined by its sign and by what its magnitude is worth. -/
theorem eq_of_magnitudeValue_eq {x y : Binary64} (hx : x.isFinite) (hy : y.isFinite)
    (sign : x.isNegative = y.isNegative) (same : x.magnitudeValue = y.magnitudeValue) :
    x = y := by
  have zeros : x.isZero ↔ y.isZero := by
    rw [← magnitudeValue_eq_zero_iff hx, same, magnitudeValue_eq_zero_iff hy]
  cases zeroX : x.isZero with
  | true => exact eq_of_isZero zeroX (zeros.1 zeroX) sign
  | false =>
      have zeroY : y.isZero = false := by
        rw [← Bool.not_eq_true, ← zeros, zeroX]
        exact Bool.false_ne_true
      simp only [magnitudeValue, zeroX, zeroY, Bool.false_eq_true, if_false] at same
      obtain ⟨-, num, den, hden, ratio, rounds⟩ :=
        exists_ratio_of_ofDecimal (ofDecimal_shortest hx) hx zeroX
      obtain ⟨-, num', den', hden', ratio', rounds'⟩ :=
        exists_ratio_of_ofDecimal (ofDecimal_shortest hy) hy zeroY
      have cross : num * den' = num' * den := by
        rw [← same, ← ratio, div_eq_div_iff (by positivity) (by positivity)] at ratio'
        exact_mod_cast ratio'.symm
      rw [← rounds, ← rounds', sign]
      exact ofRatio_congr hden hden' cross _

end Finite

end Binary64

end DesignTokens
