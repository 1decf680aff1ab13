import DesignTokens.Proofs.AsciiFolding
import DesignTokens.Text.Numeral

/-!
What letters turn into in another case. By the tables of cases letters turn into letters, but for
one capital and some small letters: in the other case these need a combining mark behind them.
-/
namespace DesignTokens.Text

namespace CharSet
variable {lo hi n : Nat} {inside : Bool} {bounds before after : List Nat}

/-- Whether no boundary stands between `lo` and `hi` and the points there are on the inner side. -/
def spans (lo hi : Nat) (inside : Bool) : List Nat → Bool
  | [] => inside
  | b :: rest => bif hi.blt b then inside else b.ble lo && spans lo hi (!inside) rest

theorem sideOf_of_spans (h : spans lo hi inside bounds) (above : lo ≤ n) (below : n ≤ hi) :
    sideOf inside bounds n := by
  induction bounds generalizing inside with
  | nil => exact h
  | cons b rest ih =>
      rw [spans] at h
      rw [sideOf]
      cases beyond : hi.blt b with
      | true =>
          rw [beyond] at h
          rw [Nat.blt_eq] at beyond
          rw [if_pos (Nat.lt_of_le_of_lt below beyond)]
          exact h
      | false =>
          rw [beyond, cond_false, Bool.and_eq_true, Nat.ble_eq] at h
          rw [if_neg (Nat.not_lt.2 (Nat.le_trans h.1 above))]
          exact ih h.2

theorem sideOf_append (reached : ∀ b ∈ before, b ≤ n) :
    sideOf inside (before ++ after) n =
      sideOf (before.foldl (fun side _ => !side) inside) after n := by
  induction before generalizing inside with
  | nil => rfl
  | cons b rest ih =>
      obtain ⟨first, others⟩ := List.forall_mem_cons.1 reached
      rw [List.cons_append, sideOf, if_neg (Nat.not_lt.2 first), ih others, List.foldl_cons]

end CharSet

/-! The images of the runs are looked up among the letters. -/

theorem isLetter_eq_contains (c : Char) : isLetter c = letters.contains c := by
  unfold isLetter
  split
  · rename_i ascii
    exact of_each_below (P := fun c => c.isAlpha = letters.contains c) (by decide +kernel) ascii
  · rfl

/-- The boundaries from U+1D00 on, a long way behind the letters that most runs are about. -/
def laterLetters : List Nat := letters.bounds.drop 550

theorem sideOf_laterLetters {n : Nat} (later : 0x1d00 ≤ n) :
    CharSet.sideOf false laterLetters n = CharSet.sideOf false letters.bounds n := by
  have reached : ∀ b ∈ letters.bounds.take 550, b ≤ 0x1d00 := by decide +kernel
  have outside : (letters.bounds.take 550).foldl (fun side _ => !side) false = false := by
    decide +kernel
  conv => rhs; rw [← List.take_append_drop 550 letters.bounds]
  rw [CharSet.sideOf_append fun b hb => Nat.le_trans (reached b hb) later, outside]
  rfl

namespace CaseRun
variable {r : CaseRun} {n : Nat}

/-- Whether the images are letters because there are only letters from the first to the last. -/
def spansLetters (r : CaseRun) : Bool :=
  let lo := (r.first + r.shift).toNat
  let hi := (r.last + r.shift).toNat
  (hi < 0xd800 || (0xdfff < lo && hi < 0x110000)) &&
    CharSet.spans lo hi false (if 0x1d00 ≤ lo then laterLetters else letters.bounds)

/-- Whether the images are letters, as a stretch or each by itself. -/
def landsOnLetters (r : CaseRun) : Bool :=
  r.spansLetters || (List.range' r.first (r.last + 1 - r.first)).all fun n =>
    !r.covers n || isLetter (r.image n)

theorem isLetter_image_of_spans (spanned : r.spansLetters) (covered : r.covers n) :
    isLetter (r.image n) := by
  simp only [spansLetters, Bool.and_eq_true, Bool.or_eq_true, decide_eq_true_eq] at spanned
  simp only [covers, Bool.and_eq_true, decide_eq_true_eq] at covered
  obtain ⟨valid, stretch⟩ := spanned
  have above : (r.first + r.shift).toNat ≤ (n + r.shift).toNat := by omega
  have below : (n + r.shift).toNat ≤ (r.last + r.shift).toNat := by omega
  have isChar : (n + r.shift).toNat.isValidChar := by
    rcases valid with low | ⟨high, low⟩
    · exact .inl (by omega)
    · exact .inr ⟨by omega, by omega⟩
  have code : (r.image n).toNat = (n + r.shift).toNat := by
    rw [image, Char.ofNat, dif_pos isChar]
    rfl
  rw [isLetter_eq_contains, CharSet.contains, code]
  split at stretch
  · rename_i later
    rw [← sideOf_laterLetters (Nat.le_trans later above)]
    exact CharSet.sideOf_of_spans stretch above below
  · exact CharSet.sideOf_of_spans stretch above below

theorem isLetter_image (lands : r.landsOnLetters) (covered : r.covers n) :
    isLetter (r.image n) := by
  rw [landsOnLetters, Bool.or_eq_true] at lands
  rcases lands with spanned | each
  · exact isLetter_image_of_spans spanned covered
  · have between : r.first ≤ n ∧ n ≤ r.last := by
      simp only [covers, Bool.and_eq_true, decide_eq_true_eq] at covered
      exact covered.1
    have either := List.all_eq_true.1 each n (List.mem_range'_1.2 (by omega))
    rwa [covered, Bool.not_true, Bool.false_or] at either

end CaseRun

theorem landsOnLetters_of_mem_lowerRuns : ∀ r ∈ lowerRuns, r.landsOnLetters := by decide +kernel

theorem landsOnLetters_of_mem_upperRuns : ∀ r ∈ upperRuns, r.landsOnLetters := by decide +kernel

/-- Only the code point of a character stands for it, unless it stands for all that are invalid. -/
theorem eq_toNat_of_ofNat {n : Nat} {c : Char} (visible : c ≠ '\x00') (h : Char.ofNat n = c) :
    n = c.toNat := by
  by_cases valid : n.isValidChar
  · rw [Char.ofNat, dif_pos valid] at h
    exact congrArg Char.toNat h
  · rw [Char.ofNat, dif_neg valid] at h
    exact absurd h.symm visible

theorem caseImage_cases (runs : List CaseRun) (expansions : List (Nat × List Nat)) (c : Char) :
    (∃ image, (c.toNat, image) ∈ expansions ∧
      caseImage runs expansions c = image.map Char.ofNat) ∨
    (∃ r ∈ runs, r.covers c.toNat ∧ caseImage runs expansions c = [r.image c.toNat]) ∨
    caseImage runs expansions c = [c] := by
  unfold caseImage
  split
  · rename_i image found
    obtain ⟨before, after, split, -⟩ := List.lookup_eq_some_iff.1 found
    refine .inl ⟨image, ?_, rfl⟩
    rw [split]
    exact List.mem_append_right _ List.mem_cons_self
  · split
    · rename_i r found
      have covered : r.covers c.toNat := by simpa using List.find?_some found
      exact .inr (.inl ⟨r, List.mem_of_find?_eq_some found, covered, rfl⟩)
    · exact .inr (.inr rfl)

/-- The capital I with a dot, the one letter whose small form is several characters. -/
def dottedCapitalI : Char := '\u0130'

/-- Small letters whose capital is several characters, among them a mark that is no letter. -/
def markedCapitals : List Nat := [
  0x1f0, 0x390, 0x3b0, 0x1e96, 0x1e97, 0x1e98, 0x1e99, 0x1f50, 0x1f52, 0x1f54, 0x1f56, 0x1fb6,
  0x1fb7, 0x1fc6, 0x1fc7, 0x1fd2, 0x1fd3, 0x1fd6, 0x1fd7, 0x1fe2, 0x1fe3, 0x1fe4, 0x1fe6, 0x1fe7,
  0x1ff6, 0x1ff7]

/-- What `c` can turn into: a letter or `c` itself, and behind it letters unless `c` is marked. -/
inductive Recased (marked : List Nat) (c : Char) : List Char → Prop where
  | mk {first rest} (begins : isLetter first ∨ first = c)
      (behind : c.toNat ∉ marked → ∀ d ∈ rest, isLetter d) : Recased marked c (first :: rest)

namespace Recased
variable {marked : List Nat} {c : Char} {image : List Char}

theorem single {first : Char} (begins : isLetter first ∨ first = c) : Recased marked c [first] :=
  .mk begins (by simp)

theorem exists_cons (h : Recased marked c image) :
    ∃ first rest, image = first :: rest ∧ (isLetter first ∨ first = c) := by
  obtain ⟨begins, -⟩ := h
  exact ⟨_, _, rfl, begins⟩

theorem of_mem (h : Recased marked c image) (unmarked : c.toNat ∉ marked) :
    ∀ d ∈ image, isLetter d ∨ d = c := by
  obtain ⟨begins, behind⟩ := h
  exact List.forall_mem_cons.2 ⟨begins, fun d hd => .inl (behind unmarked d hd)⟩

/-- Expansions are looked at in the table, all of them. -/
theorem of_table {runs : List CaseRun} {expansions : List (Nat × List Nat)}
    (lands : ∀ r ∈ runs, r.landsOnLetters)
    (expands : ∀ e ∈ expansions, (∃ n ∈ e.2.head?, isLetter (Char.ofNat n)) ∧
      (e.1 ∈ marked ∨ ∀ n ∈ e.2.tail, isLetter (Char.ofNat n))) (c : Char) :
    Recased marked c (caseImage runs expansions c) := by
  rcases caseImage_cases runs expansions c with
    ⟨image, listed, expanded⟩ | ⟨r, listed, covered, mapped⟩ | same
  · obtain ⟨⟨n, head, letter⟩, others⟩ := expands _ listed
    obtain ⟨rest, rfl⟩ := List.head?_eq_some_iff.1 head
    rw [expanded, List.map_cons]
    exact .mk (.inl letter) fun unmarked => List.forall_mem_map.2 (others.resolve_left unmarked)
  · rw [mapped]
    exact single (.inl (CaseRun.isLetter_image (lands r listed) covered))
  · rw [same]
    exact single (.inr rfl)

end Recased

section Images
variable {c d : Char}

theorem recased_lowerChar (c : Char) : Recased [dottedCapitalI.toNat] c (lowerChar c) := by
  unfold lowerChar
  split
  · rename_i ascii
    refine .single ?_
    exact of_each_below (P := fun c => isLetter c.toLower ∨ c.toLower = c) (by decide) ascii
  · exact .of_table landsOnLetters_of_mem_lowerRuns (by decide) c

theorem of_mem_lowerChar (undotted : c ≠ dottedCapitalI) (h : d ∈ lowerChar c) :
    isLetter d ∨ d = c := by
  have unmarked : c.toNat ∉ [dottedCapitalI.toNat] := by simpa [Char.toNat_inj] using undotted
  exact (recased_lowerChar c).of_mem unmarked d h

theorem recased_upperChar (c : Char) : Recased markedCapitals c (upperChar c) := by
  unfold upperChar
  split
  · rename_i ascii
    refine .single ?_
    exact of_each_below (P := fun c => isLetter c.toUpper ∨ c.toUpper = c) (by decide) ascii
  · exact .of_table landsOnLetters_of_mem_upperRuns (by decide +kernel) c

/-- No other letter has this capital. -/
theorem eq_dottedCapitalI_of_mem_upperChar (h : dottedCapitalI ∈ upperChar c) :
    c = dottedCapitalI := by
  have expansions : ∀ e ∈ upperExpansions, dottedCapitalI ∉ e.2.map Char.ofNat := by decide +kernel
  have runs : ∀ r ∈ upperRuns, r.covers (0x130 - r.shift).toNat = false := by decide +kernel
  unfold upperChar at h
  split at h
  · rename_i ascii
    have each : ∀ k < 0x80, dottedCapitalI ∉ [(Char.ofNat k).toUpper] := by decide
    exact absurd h (of_each_below (P := fun c => dottedCapitalI ∉ [c.toUpper]) each ascii)
  · rcases caseImage_cases upperRuns upperExpansions c with
      ⟨image, listed, expanded⟩ | ⟨r, listed, covered, mapped⟩ | same
    · rw [expanded] at h
      exact absurd h (expansions _ listed)
    · rw [mapped] at h
      have code := eq_toNat_of_ofNat (by decide) (List.mem_singleton.1 h).symm
      have source : (0x130 - r.shift).toNat = c.toNat := by
        change (c.toNat + r.shift).toNat = 0x130 at code
        omega
      have uncovered := runs r listed
      rw [source, covered] at uncovered
      cases uncovered
    · rw [same] at h
      exact (List.mem_singleton.1 h).symm

end Images

end DesignTokens.Text
