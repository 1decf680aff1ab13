import DesignTokens.Text.Blank

/-!
Taking a text apart: at every character of a kind, at the first or the last occurrence of one
character, and into words. The pieces, with the separators put back between them, are the text.
-/
namespace DesignTokens.Text

/-- The pieces between the characters that satisfy `p`, empty ones included. -/
def pieces (p : Char → Bool) : List Char → List (List Char)
  | [] => [[]]
  | c :: rest =>
    if p c then [] :: pieces p rest
    else
      match pieces p rest with
      | [] => [[c]]
      | piece :: others => (c :: piece) :: others

/-- The non-empty pieces between white space. -/
def words (cs : List Char) : List (List Char) := (pieces isBlank cs).filter (!·.isEmpty)

def splitFirst (sep : Char) : List Char → Option (List Char × List Char)
  | [] => none
  | c :: rest =>
    if c = sep then some ([], rest)
    else (splitFirst sep rest).map fun (before, after) => (c :: before, after)

def splitLast (sep : Char) : List Char → Option (List Char × List Char)
  | [] => none
  | c :: rest =>
    match splitLast sep rest with
    | some (before, after) => some (c :: before, after)
    | none => if c = sep then some ([], rest) else none

/-- The text without `start` in front, if it begins with it. -/
def dropStart? (start cs : List Char) : Option (List Char) := start.isPrefixOf? cs

/-- The text without `ending` behind, if it ends with it. -/
def dropEnd? (ending cs : List Char) : Option (List Char) :=
  (ending.reverse.isPrefixOf? cs.reverse).map List.reverse

theorem pieces_ne_nil (p : Char → Bool) (cs : List Char) : pieces p cs ≠ [] := by
  cases cs with
  | nil => simp [pieces]
  | cons c rest =>
      rw [pieces]
      split
      · simp
      · split <;> simp

theorem splitFirst_eq_some {sep : Char} {cs before after : List Char}
    (h : splitFirst sep cs = some (before, after)) :
    cs = before ++ sep :: after ∧ sep ∉ before := by
  induction cs generalizing before with
  | nil => simp [splitFirst] at h
  | cons c rest ih =>
      rw [splitFirst] at h
      split at h
      · rename_i hc
        obtain ⟨rfl, rfl⟩ : [] = before ∧ rest = after := by simpa using h
        simp [hc]
      · rename_i hc
        obtain ⟨⟨b, a⟩, hs, he⟩ := Option.map_eq_some_iff.1 h
        obtain ⟨rfl, rfl⟩ : c :: b = before ∧ a = after := by simpa using he
        obtain ⟨hr, hn⟩ := ih hs
        exact ⟨by rw [hr]; rfl, by simp [hn, Ne.symm hc]⟩

theorem splitLast_eq_some {sep : Char} {cs before after : List Char}
    (h : splitLast sep cs = some (before, after)) :
    cs = before ++ sep :: after := by
  induction cs generalizing before with
  | nil => simp [splitLast] at h
  | cons c rest ih =>
      rw [splitLast] at h
      split at h
      · rename_i b a hs
        obtain ⟨rfl, rfl⟩ : c :: b = before ∧ a = after := by simpa using h
        rw [ih hs]
        rfl
      · split at h
        · rename_i hc
          obtain ⟨rfl, rfl⟩ : [] = before ∧ rest = after := by simpa using h
          simp [hc]
        · simp at h

end DesignTokens.Text
