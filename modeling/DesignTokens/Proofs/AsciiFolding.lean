import DesignTokens.Text.AsciiCase
import DesignTokens.Text.Lowercase
import DesignTokens.Text.Pieces

/-!
Texts that differ in ASCII case. Such texts take the same space, are blank and come apart in the
same places and are one text in lower case, and a word in front of a text is found in any of its
cases.
-/
namespace DesignTokens.Text

/-- What holds of the first characters, each for itself, holds of every character among them. -/
theorem of_each_below {P : Char → Prop} {n : Nat} (each : ∀ k < n, P (Char.ofNat k)) {c : Char}
    (h : c.toNat < n) : P c := by
  rw [← Char.ofNat_toNat c]
  exact each c.toNat h

/-- What does not tell the first characters from their lower case does not tell any others. -/
theorem toLower_invariant {α : Type} (f : Char → α)
    (each : ∀ k < 91, f (Char.ofNat k).toLower = f (Char.ofNat k)) (c : Char) :
    f c.toLower = f c := by
  by_cases capital : c.val ≥ 'A'.val ∧ c.val ≤ 'Z'.val
  · have below : c.toNat < 91 :=
      Nat.lt_of_le_of_lt (UInt32.le_iff_toNat_le.1 capital.2) (by decide)
    exact of_each_below (P := fun c => f c.toLower = f c) each below
  · have same : c.toLower = c := dif_neg capital
    rw [same]

theorem isBlank_toLower (c : Char) : isBlank c.toLower = isBlank c :=
  toLower_invariant isBlank (by decide) c

theorem utf8Size_toLower (c : Char) : c.toLower.utf8Size = c.utf8Size :=
  toLower_invariant Char.utf8Size (by decide) c

theorem utf8ByteSize_foldAscii (cs : List Char) :
    (String.ofList (foldAscii cs)).utf8ByteSize = (String.ofList cs).utf8ByteSize := by
  induction cs with
  | nil => rfl
  | cons c rest ih =>
      rw [foldAscii, List.map_cons, ← foldAscii, String.ofList_cons, String.ofList_cons,
        String.utf8ByteSize_append, String.utf8ByteSize_append, String.utf8ByteSize_singleton,
        String.utf8ByteSize_singleton, utf8Size_toLower, ih]

theorem length_eq_of_foldAscii_eq {a b : List Char} (same : foldAscii a = foldAscii b) :
    a.length = b.length := by
  have lengths := congrArg List.length same
  rwa [foldAscii, foldAscii, List.length_map, List.length_map] at lengths

theorem utf8ByteSize_eq_of_foldAscii_eq {a b : List Char} (same : foldAscii a = foldAscii b) :
    (String.ofList a).utf8ByteSize = (String.ofList b).utf8ByteSize := by
  rw [← utf8ByteSize_foldAscii a, same, utf8ByteSize_foldAscii]

theorem foldAscii_append (a b : List Char) : foldAscii (a ++ b) = foldAscii a ++ foldAscii b :=
  List.map_append

theorem dropStartIgnoringAsciiCase?_append {word start : List Char}
    (same : foldAscii start = foldAscii word) (rest : List Char) :
    dropStartIgnoringAsciiCase? word (start ++ rest) = some rest := by
  induction word generalizing start with
  | nil =>
      obtain rfl := List.map_eq_nil_iff.1 same
      rfl
  | cons w word ih =>
      cases start with
      | nil => cases same
      | cons c start =>
          obtain ⟨first, others⟩ := List.cons.inj same
          rw [List.cons_append, dropStartIgnoringAsciiCase?, if_pos first.symm, ih others]

theorem dropStartIgnoringAsciiCase?_iff {word cs rest : List Char} :
    dropStartIgnoringAsciiCase? word cs = some rest ↔
      ∃ start, cs = start ++ rest ∧ foldAscii start = foldAscii word := by
  constructor
  · exact dropStartIgnoringAsciiCase?_eq_some
  · rintro ⟨start, rfl, same⟩
    exact dropStartIgnoringAsciiCase?_append same rest

/-! What is done to a text can be done before its letters are made small or afterwards. -/

theorem foldAscii_foldAscii (cs : List Char) : foldAscii (foldAscii cs) = foldAscii cs := by
  have again (c : Char) : c.toLower.toLower = c.toLower :=
    toLower_invariant Char.toLower (by decide) c
  simp [foldAscii, again]

/-- A character that is no letter is not a letter in another case either. -/
theorem toLower_eq_iff {d : Char}
    (caseless : ∀ k < 91, decide ((Char.ofNat k).toLower = d) = decide (Char.ofNat k = d))
    (c : Char) : c.toLower = d ↔ c = d := by
  have same := toLower_invariant (fun c => decide (c = d)) caseless c
  rwa [decide_eq_decide] at same

theorem trimStart_foldAscii (cs : List Char) :
    trimStart (foldAscii cs) = foldAscii (trimStart cs) := by
  have blank : isBlank ∘ Char.toLower = isBlank := by
    funext c
    exact isBlank_toLower c
  rw [trimStart, foldAscii, List.dropWhile_map, blank]
  rfl

theorem trimEnd_foldAscii (cs : List Char) :
    trimEnd (foldAscii cs) = foldAscii (trimEnd cs) := by
  induction cs with
  | nil => rfl
  | cons c rest ih =>
      change trimEnd (c.toLower :: foldAscii rest) = _
      rw [trimEnd, trimEnd, ih, isBlank_toLower]
      cases trimEnd rest with
      | nil => cases isBlank c <;> rfl
      | cons d kept => rfl

theorem trim_foldAscii (cs : List Char) : trim (foldAscii cs) = foldAscii (trim cs) := by
  rw [trim, trimStart_foldAscii, trimEnd_foldAscii, trim]

theorem splitFirst_dot_foldAscii (cs : List Char) :
    splitFirst '.' (foldAscii cs) =
      (splitFirst '.' cs).map (Prod.map foldAscii foldAscii) := by
  induction cs with
  | nil => rfl
  | cons c rest ih =>
      change splitFirst '.' (c.toLower :: foldAscii rest) = _
      rw [splitFirst, splitFirst, ih]
      by_cases dot : c = '.'
      · rw [if_pos ((toLower_eq_iff (by decide) c).2 dot), if_pos dot]
        rfl
      · rw [if_neg (mt (toLower_eq_iff (by decide) c).1 dot), if_neg dot, Option.map_map,
          Option.map_map]
        rfl

theorem meetsCased_foldAscii (cs : List Char) : meetsCased (foldAscii cs) = meetsCased cs := by
  have ignorable : isCaseIgnorable ∘ Char.toLower = isCaseIgnorable := by
    funext c
    exact toLower_invariant isCaseIgnorable (by decide) c
  rw [meetsCased, meetsCased, foldAscii, List.dropWhile_map, ignorable]
  cases cs.dropWhile isCaseIgnorable with
  | nil => rfl
  | cons c rest => exact toLower_invariant isCased (by decide) c

theorem lowercaseAfter_foldAscii (before cs : List Char) :
    lowercaseAfter (foldAscii before) (foldAscii cs) = lowercaseAfter before cs := by
  induction cs generalizing before with
  | nil => rfl
  | cons c rest ih =>
      have image : lowerChar c.toLower = lowerChar c := toLower_invariant lowerChar (by decide) c
      have sigma := toLower_eq_iff (d := capitalSigma) (by decide) c
      change lowercaseAfter (foldAscii before) (c.toLower :: foldAscii rest) = _
      rw [lowercaseAfter, lowercaseAfter, smallSigma, smallSigma, meetsCased_foldAscii,
        meetsCased_foldAscii, image]
      simp only [sigma]
      congr 1
      exact ih (c :: before)

theorem lowercase_foldAscii (cs : List Char) : lowercase (foldAscii cs) = lowercase cs :=
  lowercaseAfter_foldAscii [] cs

end DesignTokens.Text
