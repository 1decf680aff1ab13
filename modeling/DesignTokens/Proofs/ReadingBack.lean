import DesignTokens.Binary64.Layout
import DesignTokens.Proofs.DecimalValues

/-!
Printed numbers read back. However a number is laid out, the text of its magnitude reads as a
decimal of the same value, and so different finite numbers are never printed alike.
-/
namespace DesignTokens

theorem Decimal.value_trimZeros (fuel : Nat) (d : Decimal) :
    (trimZeros fuel d).value = d.value := by
  induction fuel generalizing d with
  | zero => rfl
  | succ fuel ih =>
      rw [trimZeros]
      split
      · rename_i divides
        simp only [Bool.and_eq_true, decide_eq_true_eq] at divides
        rw [ih, value, value, zpow_add₀ (by norm_num), zpow_one, ← mul_assoc, mul_right_comm]
        congr 1
        have := Nat.div_mul_cancel (Nat.dvd_of_mod_eq_zero divides.2)
        exact_mod_cast this
      · rfl

namespace Binary64

/-- The rational number that a text spells, if it is the text of a decimal. -/
def readValue? (cs : List Char) : Option ℚ := (readDecimal? cs).map Decimal.value

def Digits (cs : List Char) : Prop := ∀ c ∈ cs, isDigit c

theorem digits_toDigits (n : Nat) : Digits (Nat.toDigits 10 n) := by
  intro c hc
  exact Nat.isDigit_of_mem_toDigits (by decide) (by decide) hc

theorem digits_zeros (n : Nat) : Digits (List.replicate n '0') := by
  intro c hc
  rw [List.eq_of_mem_replicate hc]
  decide

theorem Digits.append {a b : List Char} (ha : Digits a) (hb : Digits b) : Digits (a ++ b) :=
  List.forall_mem_append.2 ⟨ha, hb⟩

theorem digitsValue_toDigits (n : Nat) : digitsValue (Nat.toDigits 10 n) = n :=
  Nat.ofDigitChars_ten_toDigits

theorem digitsValue_append (a b : List Char) :
    digitsValue (a ++ b) = digitsValue a * 10 ^ b.length + digitsValue b := by
  induction b generalizing a with
  | nil => simp [digitsValue]
  | cons c rest ih =>
      have first : digitsValue (a ++ [c]) = 10 * digitsValue a + digitValue c := by
        simp [digitsValue]
      have alone : digitsValue [c] = digitValue c := by simp [digitsValue]
      calc digitsValue (a ++ c :: rest)
          = digitsValue (a ++ [c] ++ rest) := by rw [List.append_assoc, List.singleton_append]
        _ = (10 * digitsValue a + digitValue c) * 10 ^ rest.length + digitsValue rest := by
            rw [ih, first]
        _ = digitsValue a * 10 ^ (rest.length + 1) +
              (digitValue c * 10 ^ rest.length + digitsValue rest) := by ring
        _ = digitsValue a * 10 ^ (c :: rest).length + digitsValue (c :: rest) := by
            rw [← alone, ← ih [c], List.singleton_append, List.length_cons]

theorem digitsValue_zeros (n : Nat) : digitsValue (List.replicate n '0') = 0 := by
  induction n with
  | zero => rfl
  | succ n ih => exact ih

section Reading

/-- The text of an exponent, where there is one. -/
def exponentText : Option Int → List Char
  | none => []
  | some e => 'e' :: (toString e).toList

theorem readExponent?_unsigned {cs : List Char} (digits : Digits cs) (nonempty : cs ≠ []) :
    readExponent? ('e' :: cs) = some (digitsValue cs : Int) := by
  have all : cs.all isDigit := List.all_eq_true.2 digits
  have sign : ∀ c rest, cs = c :: rest → c ≠ '-' ∧ c ≠ '+' := by
    rintro c rest rfl
    have digit := digits c List.mem_cons_self
    constructor <;> rintro rfl <;> exact absurd digit (by decide)
  simp only [readExponent?]
  rw [if_pos (by decide)]
  split
  · exact absurd rfl (sign _ _ rfl).1
  · exact absurd rfl (sign _ _ rfl).2
  · simp [all, nonempty]

theorem readExponent?_negative {cs : List Char} (digits : Digits cs) (nonempty : cs ≠ []) :
    readExponent? ('e' :: '-' :: cs) = some (-(digitsValue cs : Int)) := by
  have all : cs.all isDigit := List.all_eq_true.2 digits
  simp [readExponent?, all, nonempty]

theorem readExponent?_exponentText (e : Option Int) :
    readExponent? (exponentText e) = some (e.getD 0) := by
  cases e with
  | none => rfl
  | some e =>
      rw [exponentText, Int.toString_eq_repr, Int.repr_eq_if, Option.getD_some]
      split
      · rename_i natural
        rw [Nat.toList_repr, readExponent?_unsigned (digits_toDigits _) Nat.toDigits_ne_nil,
          digitsValue_toDigits, Int.toNat_of_nonneg natural]
      · rename_i negative
        have sign : String.toList "-" = ['-'] := rfl
        rw [String.toList_append, Nat.toList_repr, sign, List.singleton_append,
          readExponent?_negative (digits_toDigits _) Nat.toDigits_ne_nil, digitsValue_toDigits,
          Int.toNat_of_nonneg (by omega), Int.neg_neg]

theorem takeWhile_exponentText (e : Option Int) : (exponentText e).takeWhile isDigit = [] := by
  cases e <;> rfl

theorem dropWhile_exponentText (e : Option Int) :
    (exponentText e).dropWhile isDigit = exponentText e := by
  cases e <;> rfl

theorem readValue?_whole {whole : List Char} (digits : Digits whole) (nonempty : whole ≠ [])
    (e : Option Int) :
    readValue? (whole ++ exponentText e) = some (digitsValue whole * (10 : ℚ) ^ e.getD 0) := by
  have exponent := readExponent?_exponentText e
  simp only [readValue?, readDecimal?, List.takeWhile_append_of_pos digits,
    List.dropWhile_append_of_pos digits, takeWhile_exponentText, dropWhile_exponentText]
  -- No point follows, whether or not there is an exponent.
  cases e with
  | none =>
      rw [exponentText] at exponent ⊢
      simp [nonempty, exponent, Decimal.value]
  | some e =>
      rw [exponentText] at exponent ⊢
      generalize (toString e).toList = text at exponent ⊢
      simp [nonempty, exponent, Decimal.value]

theorem readValue?_point {whole decimals : List Char} (digits : Digits whole)
    (nonempty : whole ≠ []) (digits' : Digits decimals) (e : Option Int) :
    readValue? (whole ++ '.' :: (decimals ++ exponentText e)) =
      some (digitsValue (whole ++ decimals) * (10 : ℚ) ^ (e.getD 0 - decimals.length)) := by
  have point : ('.' :: (decimals ++ exponentText e)).takeWhile isDigit = [] := rfl
  have point' : ('.' :: (decimals ++ exponentText e)).dropWhile isDigit =
      '.' :: (decimals ++ exponentText e) := rfl
  simp only [readValue?, readDecimal?, List.takeWhile_append_of_pos digits,
    List.dropWhile_append_of_pos digits, point, point', List.takeWhile_append_of_pos digits',
    List.dropWhile_append_of_pos digits', takeWhile_exponentText, dropWhile_exponentText]
  simp [nonempty, readExponent?_exponentText, Decimal.value]

/-- Without an exponent. -/
theorem readValue?_digits {whole : List Char} (digits : Digits whole) (nonempty : whole ≠ []) :
    readValue? whole = some (digitsValue whole : ℚ) := by
  have read := readValue?_whole digits nonempty none
  rwa [exponentText, List.append_nil, Option.getD_none, zpow_zero, mul_one] at read

theorem readValue?_decimals {whole decimals : List Char} (digits : Digits whole)
    (nonempty : whole ≠ []) (digits' : Digits decimals) :
    readValue? (whole ++ '.' :: decimals) =
      some (digitsValue (whole ++ decimals) * (10 : ℚ) ^ (-decimals.length : Int)) := by
  have read := readValue?_point digits nonempty digits' none
  rwa [exponentText, List.append_nil, Option.getD_none, zero_sub] at read

theorem readValue?_minus (cs : List Char) : readValue? ('-' :: cs) = none := rfl

end Reading

section Layouts
variable {digits : List Char} (hd : Digits digits)
include hd

theorem readValue?_zerosBefore (n : Nat) :
    readValue? ("0.".toList ++ List.replicate n '0' ++ digits) =
      some (digitsValue digits * (10 : ℚ) ^ (-(n + digits.length) : Int)) := by
  have zero : Digits ['0'] := digits_zeros 1
  have value : digitsValue (['0'] ++ (List.replicate n '0' ++ digits)) = digitsValue digits := by
    have nothing : digitsValue ['0'] = 0 := digitsValue_zeros 1
    rw [digitsValue_append, digitsValue_append, digitsValue_zeros, nothing]
    simp
  have read := readValue?_decimals zero (by simp) ((digits_zeros n).append hd)
  rw [value, List.length_append, List.length_replicate] at read
  exact_mod_cast read

variable (nonempty : digits ≠ [])
include nonempty

theorem readValue?_split {size : Nat} (positive : 0 < size) (inside : size < digits.length) :
    readValue? (digits.take size ++ '.' :: digits.drop size) =
      some (digitsValue digits * (10 : ℚ) ^ ((size : Int) - digits.length)) := by
  have whole : Digits (digits.take size) := fun c hc => hd c (List.mem_of_mem_take hc)
  have decimals : Digits (digits.drop size) := fun c hc => hd c (List.mem_of_mem_drop hc)
  have filled : digits.take size ≠ [] := by
    rw [ne_eq, List.take_eq_nil_iff, not_or]
    exact ⟨positive.ne', nonempty⟩
  have exponent : (-(digits.drop size).length : Int) = size - digits.length := by
    rw [List.length_drop]
    omega
  have read := readValue?_decimals whole filled decimals
  rwa [exponent, List.take_append_drop] at read

theorem readValue?_zerosBehind (n : Nat) (keepsFraction : Bool) :
    readValue? (digits ++ List.replicate n '0' ++ if keepsFraction then ".0".toList else []) =
      some (digitsValue digits * (10 : ℚ) ^ n) := by
  have whole : Digits (digits ++ List.replicate n '0') := hd.append (digits_zeros n)
  have filled : digits ++ List.replicate n '0' ≠ [] := by simp [nonempty]
  have value : (digitsValue (digits ++ List.replicate n '0') : ℚ) =
      digitsValue digits * (10 : ℚ) ^ n := by
    rw [digitsValue_append, digitsValue_zeros, List.length_replicate]
    push_cast
    ring
  rw [← value]
  split
  · have zero : Digits ['0'] := digits_zeros 1
    have nothing : digitsValue ['0'] = 0 := digitsValue_zeros 1
    have read := readValue?_decimals whole filled zero
    rw [digitsValue_append, nothing] at read
    refine read.trans (congrArg some ?_)
    norm_num
    ring
  · rw [List.append_nil]
    exact readValue?_digits whole filled

theorem readValue?_inFull (layout : Layout) (e : Int) :
    readValue? (layout.inFull digits (digits.length + e)) =
      some (digitsValue digits * (10 : ℚ) ^ e) := by
  unfold Layout.inFull
  split
  · rename_i small
    have exponent : (-(((-(digits.length + e)).toNat : Nat) + digits.length) : Int) = e := by omega
    rw [readValue?_zerosBefore hd, exponent]
  · rename_i large
    simp only
    split
    · rename_i inside
      have exponent : ((digits.length + e).toNat : Int) - digits.length = e := by omega
      rw [readValue?_split hd nonempty (by omega) inside, exponent]
    · rename_i outside
      have exponent : e = ((digits.length + e).toNat - digits.length : Nat) := by omega
      rw [readValue?_zerosBehind hd nonempty, ← zpow_natCast, ← exponent]

theorem readValue?_withExponent (e : Int) :
    readValue? (withExponent digits (digits.length + e)) =
      some (digitsValue digits * (10 : ℚ) ^ e) := by
  unfold withExponent
  cases digits with
  | nil => exact absurd rfl nonempty
  | cons d rest =>
      have whole : Digits [d] := List.forall_mem_singleton.2 (hd d List.mem_cons_self)
      cases rest with
      | nil =>
          have position : (([d] : List Char).length + e - 1 : Int) = e := by simp
          rw [position]
          exact readValue?_whole whole nonempty (some e)
      | cons c rest =>
          have decimals : Digits (c :: rest) := fun c hc => hd c (List.mem_cons_of_mem _ hc)
          have read := readValue?_point whole (by simp) decimals
            (some ((d :: c :: rest).length + e - 1))
          have exponent : (some ((d :: c :: rest).length + e - 1 : Int)).getD 0 -
              (c :: rest).length = e := by
            simp
            omega
          rw [exponent] at read
          exact read

end Layouts

theorem readValue?_magnitude (layout : Layout) (x : Binary64) :
    readValue? (layout.magnitude x) = some x.magnitudeValue := by
  unfold Layout.magnitude magnitudeValue
  split
  · have point : readDecimal? "0.0".toList = some ⟨0, -1⟩ := by decide
    have plain : readDecimal? "0".toList = some ⟨0, 0⟩ := by decide
    split
    · rw [readValue?, point]
      simp [Decimal.value]
    · rw [readValue?, plain]
      simp [Decimal.value]
  · simp only
    have worth : digitsValue (Nat.toDigits 10 (x.shortest.trimZeros 1100).coefficient) *
        (10 : ℚ) ^ (x.shortest.trimZeros 1100).exponent = x.shortest.value := by
      rw [digitsValue_toDigits]
      exact Decimal.value_trimZeros 1100 x.shortest
    rw [← worth]
    split
    · exact readValue?_inFull (digits_toDigits _) Nat.toDigits_ne_nil layout _
    · exact readValue?_withExponent (digits_toDigits _) Nat.toDigits_ne_nil _

theorem write_of_isFinite (layout : Layout) {x : Binary64} (finite : x.isFinite) :
    layout.write x = if x.isNegative then '-' :: layout.magnitude x else layout.magnitude x := by
  have number : x.isNaN = false := by
    have exponent : x.exponentField ≠ 2047 := of_decide_eq_true finite
    simp [isNaN, exponent]
  simp [Layout.write, number, finite]

/-- Different finite numbers are printed differently, whatever the layout. -/
theorem write_injective (layout : Layout) {x y : Binary64} (hx : x.isFinite) (hy : y.isFinite)
    (same : layout.write x = layout.write y) : x = y := by
  have unsigned (x y : Binary64) : '-' :: layout.magnitude x ≠ layout.magnitude y := by
    intro h
    have read := readValue?_magnitude layout y
    rw [← h, readValue?_minus] at read
    cases read
  have worth (h : layout.magnitude x = layout.magnitude y) :
      x.magnitudeValue = y.magnitudeValue := by
    refine Option.some.inj ?_
    rw [← readValue?_magnitude layout, ← readValue?_magnitude layout, h]
  rw [write_of_isFinite layout hx, write_of_isFinite layout hy] at same
  cases signX : x.isNegative <;> cases signY : y.isNegative <;>
    simp only [signX, signY, if_true, if_false, Bool.false_eq_true] at same
  · exact eq_of_magnitudeValue_eq hx hy (signX.trans signY.symm) (worth same)
  · exact absurd same.symm (unsigned y x)
  · exact absurd same (unsigned x y)
  · exact eq_of_magnitudeValue_eq hx hy (signX.trans signY.symm) (worth (List.cons.inj same).2)

end Binary64

end DesignTokens
