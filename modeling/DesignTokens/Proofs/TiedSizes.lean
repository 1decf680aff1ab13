import DesignTokens.Proofs.SizeReading
import DesignTokens.Proofs.Trimming
import DesignTokens.Proofs.UnitSuffixes

/-!
Sizes whose values are equal as numbers. Zero is the only number with two bit patterns, and in the
order of patterns its negative one stands in front; apart from that, sizes of one number come in the
order of their names. So names decide between all sizes of one number exactly when the negative
zeros of a group have smaller names than its other zeros, in particular when nothing is written with
a minus.
-/
namespace DesignTokens

namespace Binary64
variable {x y : Binary64}

def negativeZero : Binary64 := ofMagnitudeBits true 0

theorem isZero_iff : x.isZero ↔ x = zero ∨ x = negativeZero := by
  have isZero_zero : zero.isZero := isZero_signedZero false
  have isZero_negativeZero : negativeZero.isZero := isZero_signedZero true
  constructor
  · intro h
    cases sign : x.isNegative with
    | false => exact .inl (eq_of_isZero h isZero_zero sign)
    | true => exact .inr (eq_of_isZero h isZero_negativeZero sign)
  · rintro (rfl | rfl)
    · exact isZero_zero
    · exact isZero_negativeZero

/-- Different patterns of one number are the two zeros. -/
theorem cases_of_sameValue (h : x.sameValue y) :
    x = y ∨ x = zero ∧ y = negativeZero ∨ x = negativeZero ∧ y = zero := by
  simp only [sameValue, Bool.and_eq_true, Bool.or_eq_true, decide_eq_true_eq, isZero_iff] at h
  rcases h.2 with same | ⟨rfl | rfl, rfl | rfl⟩
  · exact .inl same
  · exact .inl rfl
  · exact .inr (.inl ⟨rfl, rfl⟩)
  · exact .inr (.inr ⟨rfl, rfl⟩)
  · exact .inl rfl

/-- Rounding keeps the sign, also where it leads to zero or to infinity. -/
theorem isNegative_ofDecimal (negative : Bool) (d : Decimal) :
    (ofDecimal negative d).isNegative = negative := by
  have rounded (num den : Nat) : (ofRatio negative num den).isNegative = negative :=
    isNegative_ofMagnitudeBits (Nat.min_le_right _ _) negative
  unfold ofDecimal
  split
  · exact isNegative_ofMagnitudeBits (Nat.zero_le _) negative
  · dsimp only
    split
    · exact isNegative_ofMagnitudeBits (Nat.le_refl _) negative
    · split
      · exact isNegative_ofMagnitudeBits (Nat.zero_le _) negative
      · split
        · exact rounded _ _
        · exact rounded _ _

theorem isNegative_of_readMagnitude? {negative : Bool} {cs : List Char}
    (h : readMagnitude? negative cs = some x) : x.isNegative = negative := by
  simp only [readMagnitude?] at h
  split at h
  · obtain rfl := Option.some.inj h
    exact isNegative_ofMagnitudeBits (Nat.le_refl _) negative
  · split at h
    · obtain rfl := Option.some.inj h
      cases negative <;> decide
    · obtain ⟨d, -, rfl⟩ := Option.map_eq_some_iff.1 h
      exact isNegative_ofDecimal negative d

theorem head?_of_read?_negative {cs : List Char} (h : read? cs = some x)
    (negative : x.isNegative) : cs.head? = some '-' := by
  unfold read? at h
  split at h
  · rfl
  · rw [isNegative_of_readMagnitude? h] at negative
    cases negative
  · rw [isNegative_of_readMagnitude? h] at negative
    cases negative

end Binary64

namespace Dimension

/-- Negative numbers, negative zero among them, are written with a minus in front. -/
theorem head?_of_read_negative {units : List String} {text : String} {value : Binary64}
    (h : read units text = .ok value) (negative : value.isNegative) :
    (Text.trim text.toList).head? = some '-' := by
  obtain ⟨unit, longest, split⟩ := exists_longestUnit units (Text.trim text.toList)
  rw [read_eq longest split] at h
  generalize withoutUnit (units.map String.toList) (Text.trim text.toList) = number at h split
  cases reads : Binary64.readFinite? (Text.trimEnd number) with
  | none =>
      rw [reads] at h
      cases h
  | some found =>
      rw [reads] at h
      obtain rfl := Except.ok.inj h
      obtain ⟨isRead, -⟩ := Binary64.readFinite?_eq_some.1 reads
      have minus := Binary64.head?_of_read?_negative isRead negative
      -- What is read begins the text: trimming and the unit take something off its end only.
      obtain ⟨rest, whole⟩ : Text.trimEnd number <+: number := by
        rw [Text.trimEnd_eq_rdropWhile]
        exact List.rdropWhile_prefix _ _
      rw [split, ← whole, List.head?_append, List.head?_append, minus]
      rfl

end Dimension

namespace Size
variable {members : Table String Json} {group : String} {units : List String} {sizes : List Size}

/-- Of two sizes with the same number the one with the smaller name comes first. -/
def TiesByName (sizes : List Size) : Prop :=
  sizes.Pairwise fun a b => a.value.sameValue b.value → a.name < b.name

theorem mem_of_readGroup (h : readGroup members group units = .ok sizes) {size : Size} :
    size ∈ sizes ↔
      ∃ name node, members.find? name = some node ∧ Reads units (name, node) size := by
  simp only [readGroup, bind_eq_ok] at h
  obtain ⟨listed, results, h⟩ := h
  obtain rfl := Except.ok.inj h
  rw [(sort_perm listed).mem_iff, mem_of_mapM_eq_ok results]
  simp only [Prod.exists, Table.find?_eq_some, readMember_eq_ok_iff_reads]

/-- Of a negative zero and another zero the negative one has the smaller name. -/
def ZerosByName (a b : Size) : Prop :=
  a.value = .negativeZero → b.value = .zero → a.name < b.name

instance (a b : Size) : Decidable (ZerosByName a b) := inferInstanceAs (Decidable (_ → _ → _))

theorem not_notAfter_negativeZero {a b : Size} (ha : a.value = .zero)
    (hb : b.value = .negativeZero) : ¬ notAfter a b := by
  rw [notAfter_iff, ha, hb]
  rintro (less | ⟨same, -⟩)
  · exact absurd less (by decide)
  · exact absurd same (by decide)

theorem pairwise_ties_of_readGroup (h : readGroup members group units = .ok sizes) :
    sizes.Pairwise fun a b => a.value.sameValue b.value →
      a.value = b.value ∧ a.name < b.name ∨ a.value = .negativeZero ∧ b.value = .zero := by
  have names := pairwise_names_of_readGroup h
  obtain ⟨listed, -, rfl⟩ := readGroup_eq_ok.1 h
  refine (pairwise_sort listed).imp₂ ?_ names
  intro a b ordered name tie
  rcases Binary64.cases_of_sameValue tie with same | ⟨ha, hb⟩ | zeros
  · exact .inl ⟨same, name same⟩
  · exact absurd ordered (not_notAfter_negativeZero ha hb)
  · exact .inr zeros

theorem tiesByName_iff (h : readGroup members group units = .ok sizes) :
    TiesByName sizes ↔ ∀ a ∈ sizes, ∀ b ∈ sizes, ZerosByName a b := by
  constructor
  · intro ties
    obtain ⟨listed, -, rfl⟩ := readGroup_eq_ok.1 h
    have itself : ∀ a ∈ sort listed, ZerosByName a a := by
      intro a _ negative positive
      exact absurd (negative.symm.trans positive) (by decide)
    have forwards : (sort listed).Pairwise ZerosByName := by
      refine ties.imp fun tie negative positive => tie ?_
      rw [negative, positive]
      decide
    -- No other zero comes before a negative one.
    have backwards : (sort listed).Pairwise (flip ZerosByName) := by
      refine (pairwise_sort listed).imp fun ordered negative positive => ?_
      exact absurd ordered (not_notAfter_negativeZero positive negative)
    intro a ha b hb
    exact forwards.forall_of_forall_of_flip itself backwards ha hb
  · intro zeros
    refine (pairwise_ties_of_readGroup h).imp_of_mem ?_
    intro a b ha hb tie same
    rcases tie same with ⟨-, name⟩ | ⟨negative, positive⟩
    · exact name
    · exact zeros a ha b hb negative positive

/-- A group that is read lists the sizes of one number by name, but negative zeros before all other
zeros. So the smaller name comes first in all ties exactly when no other zero has a smaller name
than a negative one. For that it is enough that no value of the group begins with a minus. -/
theorem readGroup_orders_ties (h : readGroup members group units = .ok sizes) :
    (sizes.Pairwise fun a b => a.value.sameValue b.value →
      a.value = b.value ∧ a.name < b.name ∨ a.value = .negativeZero ∧ b.value = .zero) ∧
    (TiesByName sizes ↔ ∀ a ∈ sizes, ∀ b ∈ sizes, ZerosByName a b) ∧
    ((∀ name node leaf, members.find? name = some node → Leaf.ofJson? node = some leaf →
      (Text.trim leaf.value.toList).head? ≠ some '-') → TiesByName sizes) := by
  refine ⟨pairwise_ties_of_readGroup h, tiesByName_iff h, fun unsigned => ?_⟩
  refine (tiesByName_iff h).2 fun a ha _ _ negative _ => ?_
  obtain ⟨name, node, found, -, leaf, isLeaf, read⟩ := (mem_of_readGroup h).1 ha
  have minus := Dimension.head?_of_read_negative read (by rw [negative]; decide)
  exact absurd minus (unsigned name node leaf found isLeaf)

/-- Zero and two negative numbers that round to it, the names of which come first. -/
theorem readGroup_orders_ties_underflowing :
    let leaf (value : String) := Json.object [("type", .string "size"), ("value", .string value)]
    let members : Table String Json :=
      .ofList [("c", leaf "0.0"), ("b", leaf "-0 px"), ("a", leaf "-1e-400px"), ("d", leaf "-8")]
    let sizes : List Size :=
      [⟨"d", ⟨0xC020000000000000⟩⟩, ⟨"a", .negativeZero⟩, ⟨"b", .negativeZero⟩, ⟨"c", .zero⟩]
    readGroup members "Spacing" ["px"] = .ok sizes ∧ TiesByName sizes := by
  intro leaf members sizes
  have read : members.entries.mapM (readMember "Spacing" ["px"]) =
      .ok [⟨"a", .negativeZero⟩, ⟨"b", .negativeZero⟩, ⟨"c", .zero⟩,
        ⟨"d", ⟨0xC020000000000000⟩⟩] := by
    decide +kernel
  have answer : readGroup members "Spacing" ["px"] = .ok sizes := by
    rw [readGroup, read]
    exact congrArg Except.ok (sort_eq_iff.2 ⟨by decide +kernel, by decide +kernel⟩)
  obtain ⟨-, ties, -⟩ := readGroup_orders_ties answer
  exact ⟨answer, ties.2 (by decide +kernel)⟩

/-- A negative zero comes before a zero with a smaller name. -/
theorem not_every_tie_by_name :
    ¬ ∀ (members : Table String Json) (group : String) (units : List String) (sizes : List Size),
      readGroup members group units = .ok sizes → TiesByName sizes := by
  intro h
  let leaf (value : String) :=
    Json.object [("type", .string "dimension"), ("value", .string value)]
  let members : Table String Json := .ofList [("a", leaf "0px"), ("b", leaf "-0px")]
  have read : members.entries.mapM (readMember "Spacing" ["px"]) =
      .ok [⟨"a", .zero⟩, ⟨"b", .negativeZero⟩] := by
    decide +kernel
  have answer : readGroup members "Spacing" ["px"] =
      .ok [⟨"b", .negativeZero⟩, ⟨"a", .zero⟩] := by
    rw [readGroup, read]
    exact congrArg Except.ok (sort_eq_iff.2 ⟨by decide +kernel, by decide +kernel⟩)
  have ties := h members "Spacing" ["px"] _ answer
  rw [TiesByName, List.pairwise_pair] at ties
  exact absurd (ties (by decide)) (by decide)

end Size

end DesignTokens
