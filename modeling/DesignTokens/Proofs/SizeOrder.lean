import DesignTokens.Proofs.DecimalValues
import DesignTokens.Sizes
import Mathlib.Data.String.Basic

/-!
The order of sizes. It compares bit patterns, all of which have different places, so different sizes
never tie and sorting depends on nothing but which sizes there are. Along the patterns the finite
numbers ascend.
-/
namespace DesignTokens

namespace Binary64
variable {x y : Binary64}

theorem orderKey_injective {x y : Binary64} (h : x.orderKey = y.orderKey) : x = y := by
  obtain ⟨x⟩ := x
  obtain ⟨y⟩ := y
  have hx := x.toNat_lt
  have hy := y.toNat_lt
  have bits : x.toNat = y.toNat := by
    simp only [orderKey, isNegative, decide_eq_true_eq, Nat.pow_eq] at h
    split at h <;> split at h <;> omega
  exact congrArg Binary64.mk (UInt64.toNat_inj.1 bits)

/-- A finite number with its sign, counted in units of 2⁻¹⁰⁷⁴. -/
def signedUnits (x : Binary64) : Int := if x.isNegative then -(x.units : Int) else x.units

theorem units_of_exponentField {e : Nat} (h : x.exponentField = e + 1) :
    x.units = (2 ^ 52 + x.fraction) * 2 ^ e := by
  rw [units, h]
  rfl

theorem units_lt_of_exponentField_lt (h : x.exponentField < y.exponentField) :
    x.units < y.units := by
  obtain ⟨e, field⟩ := Nat.exists_eq_succ_of_ne_zero (Nat.ne_zero_of_lt h)
  rw [units_of_exponentField field]
  calc x.units < 2 ^ (x.exponentField + 52) := units_lt x
    _ ≤ 2 ^ (52 + e) := Nat.pow_le_pow_right (by decide) (by omega)
    _ = 2 ^ 52 * 2 ^ e := Nat.pow_add 2 52 e
    _ ≤ (2 ^ 52 + y.fraction) * 2 ^ e := Nat.mul_le_mul_right _ (Nat.le_add_right _ _)

theorem units_le_of_fraction_le (field : x.exponentField = y.exponentField)
    (fraction : x.fraction ≤ y.fraction) : x.units ≤ y.units := by
  cases h : y.exponentField with
  | zero =>
      rw [units, units, field, h]
      exact fraction
  | succ e =>
      rw [units_of_exponentField (field.trans h), units_of_exponentField h]
      exact Nat.mul_le_mul_right _ (Nat.add_le_add_left fraction _)

/-- Without their signs, patterns are in the order of the numbers they stand for. -/
theorem units_le_units (h : x.bits.toNat % 2 ^ 63 ≤ y.bits.toNat % 2 ^ 63) : x.units ≤ y.units := by
  have fractionX := fraction_lt x
  have fractionY := fraction_lt y
  rw [fields_eq, fields_eq] at h
  rcases Nat.lt_trichotomy x.exponentField y.exponentField with less | same | more
  · exact (units_lt_of_exponentField_lt less).le
  · exact units_le_of_fraction_le same (by omega)
  · omega

theorem signedUnits_le_of_orderKey_le (h : x.orderKey ≤ y.orderKey) :
    x.signedUnits ≤ y.signedUnits := by
  have sizeX := x.bits.toNat_lt
  have sizeY := y.bits.toNat_lt
  simp only [orderKey, isNegative, decide_eq_true_eq, Nat.pow_eq] at h
  simp only [signedUnits, isNegative, decide_eq_true_eq, Nat.pow_eq]
  split at h <;> split at h
  · rename_i negativeX negativeY
    have units : y.units ≤ x.units := units_le_units (by omega)
    rw [if_pos negativeX, if_pos negativeY]
    omega
  · rename_i negativeX positiveY
    rw [if_pos negativeX, if_neg positiveY]
    omega
  · omega
  · rename_i positiveX positiveY
    have units : x.units ≤ y.units := units_le_units (by omega)
    rw [if_neg positiveX, if_neg positiveY]
    omega

end Binary64

namespace Size

theorem notAfter_iff {a b : Size} :
    notAfter a b ↔ a.value.orderKey < b.value.orderKey ∨
      (a.value.orderKey = b.value.orderKey ∧ a.name ≤ b.name) := by
  simp [notAfter]

theorem notAfter_trans {a b c : Size} (hab : notAfter a b) (hbc : notAfter b c) :
    notAfter a c := by
  rw [notAfter_iff] at hab hbc ⊢
  rcases hab with hab | ⟨hab, names⟩
  · rcases hbc with hbc | ⟨hbc, -⟩
    · exact .inl (hab.trans hbc)
    · exact .inl (hbc ▸ hab)
  · rcases hbc with hbc | ⟨hbc, names'⟩
    · exact .inl (hab ▸ hbc)
    · exact .inr ⟨hab.trans hbc, String.le_trans names names'⟩

theorem notAfter_total (a b : Size) : notAfter a b ∨ notAfter b a := by
  rw [notAfter_iff, notAfter_iff]
  rcases Nat.lt_trichotomy a.value.orderKey b.value.orderKey with h | h | h
  · exact .inl (.inl h)
  · exact (String.le_total a.name b.name).imp (fun names => .inr ⟨h, names⟩)
      (fun names => .inr ⟨h.symm, names⟩)
  · exact .inr (.inl h)

/-- Different sizes never tie, because the order of values tells all bit patterns apart. -/
theorem notAfter_antisymm {a b : Size} (hab : notAfter a b) (hba : notAfter b a) : a = b := by
  rw [notAfter_iff] at hab hba
  obtain ⟨values, names⟩ : a.value.orderKey = b.value.orderKey ∧ a.name = b.name := by
    rcases hab with hab | ⟨hab, names⟩ <;> rcases hba with hba | ⟨hba, names'⟩
    · omega
    · omega
    · omega
    · exact ⟨hab, String.le_antisymm names names'⟩
  obtain ⟨name, value⟩ := a
  obtain ⟨name', value'⟩ := b
  exact congrArg₂ Size.mk names (Binary64.orderKey_injective values)

theorem pairwise_sort (sizes : List Size) : (sort sizes).Pairwise fun a b => notAfter a b := by
  refine List.pairwise_mergeSort ?_ ?_ sizes
  · intro a b c
    exact notAfter_trans
  · intro a b
    rw [Bool.or_eq_true]
    exact notAfter_total a b

theorem sort_perm (sizes : List Size) : (sort sizes).Perm sizes := List.mergeSort_perm sizes _

/-- The one list with the same sizes that is in order. -/
theorem sort_eq_iff {sizes sorted : List Size} :
    sort sizes = sorted ↔ sorted.Perm sizes ∧ sorted.Pairwise fun a b => notAfter a b := by
  constructor
  · rintro rfl
    exact ⟨sort_perm sizes, pairwise_sort sizes⟩
  · intro h
    exact List.Perm.eq_of_pairwise (fun _ _ _ _ => notAfter_antisymm) (pairwise_sort sizes) h.2
      ((sort_perm sizes).trans h.1.symm)

theorem sort_sort (sizes : List Size) : sort (sort sizes) = sort sizes :=
  sort_eq_iff.2 ⟨.refl _, pairwise_sort sizes⟩

theorem sort_eq_of_perm {sizes others : List Size} (h : sizes.Perm others) :
    sort sizes = sort others :=
  sort_eq_iff.2 ⟨(sort_perm others).trans h.symm, pairwise_sort others⟩

end Size

end DesignTokens
