/-!
Comparison that does not tell the letters A to Z from a to z. Every other character, accented
letters included, is compared as it is.
-/
namespace DesignTokens.Text

def foldAscii (cs : List Char) : List Char := cs.map Char.toLower

def sameIgnoringAsciiCase (a b : List Char) : Bool := foldAscii a == foldAscii b

/-- The rest of `cs` behind `word`, if `cs` begins with `word` in any ASCII case. -/
def dropStartIgnoringAsciiCase? : (word cs : List Char) → Option (List Char)
  | [], cs => some cs
  | _ :: _, [] => none
  | w :: word, c :: rest =>
    if w.toLower = c.toLower then dropStartIgnoringAsciiCase? word rest else none

theorem sameIgnoringAsciiCase_refl (a : List Char) : sameIgnoringAsciiCase a a := by
  simp [sameIgnoringAsciiCase]

theorem dropStartIgnoringAsciiCase?_eq_some {word cs rest : List Char}
    (h : dropStartIgnoringAsciiCase? word cs = some rest) :
    ∃ start, cs = start ++ rest ∧ foldAscii start = foldAscii word := by
  induction word generalizing cs with
  | nil => exact ⟨[], by simpa [dropStartIgnoringAsciiCase?] using h, rfl⟩
  | cons w word ih =>
      cases cs with
      | nil => simp [dropStartIgnoringAsciiCase?] at h
      | cons c cs =>
          rw [dropStartIgnoringAsciiCase?] at h
          split at h
          · rename_i hc
            obtain ⟨start, rfl, hs⟩ := ih h
            exact ⟨c :: start, rfl, by simpa [foldAscii, hc] using hs⟩
          · simp at h

end DesignTokens.Text
