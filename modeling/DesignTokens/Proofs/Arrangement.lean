import DesignTokens.Compile
import DesignTokens.Proofs.DeclaredNames
import DesignTokens.Proofs.Lookup
import DesignTokens.Proofs.SizeOrder

/-!
How tokens are arranged into declarations. Groups of colours, the colours of a group and the sizes
each come in an order in which different entries never tie, so the arrangement depends on which
entries there are and not on the order they come in.
-/
namespace DesignTokens

namespace Swift.Declarations

theorem mem_categoriesOf {entries : List MergedEntry} {category : String} :
    category ∈ categoriesOf entries ↔ ∃ e ∈ entries, e.name.category = category := by
  rw [categoriesOf, Table.mem_keys_ofList]
  simp

theorem ascending_categoriesOf (entries : List MergedEntry) :
    (categoriesOf entries).Pairwise (· < ·) := Table.ascending_keys _

theorem categoriesOf_eq_of_perm {entries others : List MergedEntry} (h : entries.Perm others) :
    categoriesOf entries = categoriesOf others := by
  refine Table.eq_of_ascending (ascending_categoriesOf entries) (ascending_categoriesOf others) ?_
  intro category
  simp only [mem_categoriesOf, h.mem_iff]

theorem pairwise_tokens (entries : List MergedEntry) :
    (entries.mergeSort tokenNotAfter).Pairwise fun a b => tokenNotAfter a b := by
  refine List.pairwise_mergeSort ?_ ?_ entries
  · intro a b c hab hbc
    simp only [tokenNotAfter, decide_eq_true_eq] at hab hbc ⊢
    exact String.le_trans hab hbc
  · intro a b
    simp only [tokenNotAfter, Bool.or_eq_true, decide_eq_true_eq]
    exact String.le_total _ _

theorem colourGroup_eq_of_perm {entries others : List MergedEntry}
    (distinct : (entries.map MergedEntry.name).Nodup) (h : entries.Perm others)
    (starts : NameStarts) (category : String) :
    colourGroup starts entries category = colourGroup starts others category := by
  let inCategory (e : MergedEntry) : Bool := e.name.category = category
  have sorted : (entries.filter inCategory).mergeSort tokenNotAfter =
      (others.filter inCategory).mergeSort tokenNotAfter := by
    refine List.Perm.eq_of_pairwise ?_ (pairwise_tokens _) (pairwise_tokens _)
      ((List.mergeSort_perm _ _).trans ((h.filter _).trans (List.mergeSort_perm _ _).symm))
    intro a b ha hb hab hba
    obtain ⟨memA, categoryA⟩ := List.mem_filter.1 (List.mem_mergeSort.1 ha)
    obtain ⟨memB, categoryB⟩ := List.mem_filter.1 (List.mem_mergeSort.1 hb)
    simp only [tokenNotAfter, decide_eq_true_eq] at hab hba
    simp only [inCategory, decide_eq_true_eq] at categoryA categoryB
    have sameName : a.name = b.name := by
      rw [TokenName.mk.injEq]
      exact ⟨categoryA.trans categoryB.symm, String.le_antisymm hab hba⟩
    exact List.inj_on_of_nodup_map distinct memA (h.mem_iff.2 memB) sameName
  rw [colourGroup, colourGroup, sorted]

theorem sizeGroup_eq_of_perm {sizes others : List Size} (h : sizes.Perm others)
    (name start : String) : sizeGroup name start sizes = sizeGroup name start others := by
  rw [sizeGroup, sizeGroup, Size.sort_eq_of_perm h]

section
variable {colours colours' : List MergedEntry} {spacing spacing' radius radius' : List Size}
  (distinct : (colours.map MergedEntry.name).Nodup) (sameColours : colours.Perm colours')
  (sameSpacing : spacing.Perm spacing') (sameRadius : radius.Perm radius')
include distinct sameColours sameSpacing sameRadius

theorem arrange_eq_of_perm (config : Config) :
    arrange config colours spacing radius = arrange config colours' spacing' radius' := by
  have groups : colourGroup config.starts colours = colourGroup config.starts colours' := by
    funext category
    exact colourGroup_eq_of_perm distinct sameColours config.starts category
  simp only [arrange, categoriesOf_eq_of_perm sameColours, groups,
    sizeGroup_eq_of_perm sameSpacing, sizeGroup_eq_of_perm sameRadius]

/-- The order in which tokens come in does not matter, neither to what is declared and emitted nor
to the failure reported when nothing is. -/
theorem emission_eq_of_perm (config : Config) :
    build config colours spacing radius = build config colours' spacing' radius' ∧
      emit config colours spacing radius = emit config colours' spacing' radius' := by
  have declared : build config colours spacing radius = build config colours' spacing' radius' := by
    simp only [build, arrange_eq_of_perm distinct sameColours sameSpacing sameRadius config]
  exact ⟨declared, by simp only [emit, declared]⟩

end

/-- Two categories whose names clash, and two sizes that differ in the sign of zero only. The later
of the two categories in order is reported, whichever comes in first. -/
theorem emission_eq_of_perm_clash :
    build {} [⟨⟨"Text", "link"⟩, .ofRGB 0 0 0, .ofRGB 9 9 9⟩,
        ⟨⟨"text", "link"⟩, .ofRGB 9 9 9, .ofRGB 0 0 0⟩]
        [⟨"gap", .zero⟩, ⟨"gap", .ofMagnitudeBits true 0⟩] [] =
      build {} [⟨⟨"text", "link"⟩, .ofRGB 9 9 9, .ofRGB 0 0 0⟩,
        ⟨⟨"Text", "link"⟩, .ofRGB 0 0 0, .ofRGB 9 9 9⟩]
        [⟨"gap", .ofMagnitudeBits true 0⟩, ⟨"gap", .zero⟩] [] ∧
    build {} [⟨⟨"text", "link"⟩, .ofRGB 9 9 9, .ofRGB 0 0 0⟩,
        ⟨⟨"Text", "link"⟩, .ofRGB 0 0 0, .ofRGB 9 9 9⟩]
        [⟨"gap", .ofMagnitudeBits true 0⟩, ⟨"gap", .zero⟩] [] =
      .error (.duplicateName "Text" "TokenColors" "text") :=
  ⟨(emission_eq_of_perm (by decide) (.swap _ _ _) (.swap _ _ _) .nil {}).1,
    build_eq_error.2 (by decide +kernel)⟩

end Swift.Declarations

end DesignTokens
