import DesignTokens.Proofs.DecimalValues
import Mathlib.Data.List.TakeWhile

/-!
The characters of finite numbers: digits, signs, points and the letter in front of an exponent.
Words are read as numbers too, but never as finite ones.
-/
namespace DesignTokens.Binary64

def isDecimalChar (c : Char) : Bool := isDigit c || c ∈ "+-.eE".toList

theorem isDecimalChar_of_isDigit {c : Char} (h : isDigit c) : isDecimalChar c :=
  Bool.or_eq_true _ _ ▸ .inl h

theorem isDecimalChar_of_readExponent? {cs : List Char} {e : Int}
    (h : readExponent? cs = some e) : ∀ c ∈ cs, isDecimalChar c := by
  have behindSign (negative : Bool) (ds : List Char)
      (h : (if ds.isEmpty || !ds.all isDigit then none
        else if negative then some (-(digitsValue ds : Int)) else some (digitsValue ds)) =
          some e) : ∀ d ∈ ds, isDecimalChar d := by
    split at h
    · cases h
    · rename_i filled
      rw [Bool.or_eq_true, not_or, Bool.not_eq_true', Bool.not_eq_false] at filled
      intro d hd
      exact isDecimalChar_of_isDigit (List.all_eq_true.1 filled.2 d hd)
  cases cs with
  | nil => simp
  | cons c rest =>
      simp only [readExponent?] at h
      split at h
      · rename_i letter
        rw [Bool.or_eq_true, decide_eq_true_eq, decide_eq_true_eq] at letter
        have first : isDecimalChar c := by
          rcases letter with rfl | rfl <;> decide
        refine List.forall_mem_cons.2 ⟨first, ?_⟩
        split at h
        · exact List.forall_mem_cons.2 ⟨by decide, behindSign _ _ h⟩
        · exact List.forall_mem_cons.2 ⟨by decide, behindSign _ _ h⟩
        · exact behindSign _ _ h
      · cases h

theorem isDecimalChar_of_readDecimal? {cs : List Char} {d : Decimal}
    (h : readDecimal? cs = some d) : ∀ c ∈ cs, isDecimalChar c := by
  have digits (cs : List Char) : ∀ c ∈ cs.takeWhile isDigit, isDecimalChar c :=
    fun c hc => isDecimalChar_of_isDigit (List.mem_takeWhile_imp hc)
  rw [← List.takeWhile_append_dropWhile (p := isDigit) (l := cs)]
  refine List.forall_mem_append.2 ⟨digits cs, ?_⟩
  simp only [readDecimal?] at h
  split at h
  · rename_i r point
    split at h
    · cases h
    · obtain ⟨e, exponent, -⟩ := Option.map_eq_some_iff.1 h
      rw [point, ← List.takeWhile_append_dropWhile (p := isDigit) (l := r)]
      exact List.forall_mem_cons.2 ⟨by decide,
        List.forall_mem_append.2 ⟨digits r, isDecimalChar_of_readExponent? exponent⟩⟩
  · split at h
    · cases h
    · obtain ⟨e, exponent, -⟩ := Option.map_eq_some_iff.1 h
      exact isDecimalChar_of_readExponent? exponent

theorem readFinite?_eq_some {cs : List Char} {x : Binary64} :
    readFinite? cs = some x ↔ read? cs = some x ∧ x.isFinite := Option.filter_eq_some_iff

theorem isDecimalChar_of_readMagnitude? {negative : Bool} {cs : List Char} {x : Binary64}
    (h : readMagnitude? negative cs = some x) (finite : x.isFinite) :
    ∀ c ∈ cs, isDecimalChar c := by
  have undefined : (nan negative).isFinite = false := by cases negative <;> decide
  simp only [readMagnitude?] at h
  split at h
  · rw [← Option.some.inj h, isFinite_infinity] at finite
    cases finite
  · split at h
    · rw [← Option.some.inj h, undefined] at finite
      cases finite
    · obtain ⟨d, decimal, -⟩ := Option.map_eq_some_iff.1 h
      exact isDecimalChar_of_readDecimal? decimal

theorem isDecimalChar_of_readFinite? {cs : List Char} {x : Binary64}
    (h : readFinite? cs = some x) : ∀ c ∈ cs, isDecimalChar c := by
  obtain ⟨read, finite⟩ := readFinite?_eq_some.1 h
  unfold read? at read
  split at read
  · exact List.forall_mem_cons.2 ⟨by decide, isDecimalChar_of_readMagnitude? read finite⟩
  · exact List.forall_mem_cons.2 ⟨by decide, isDecimalChar_of_readMagnitude? read finite⟩
  · exact isDecimalChar_of_readMagnitude? read finite

end DesignTokens.Binary64
