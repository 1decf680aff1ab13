import DesignTokens.Proofs.AsciiFolding
import DesignTokens.Proofs.OwnPaths

/-!
Spellings of one reference. The case of ASCII letters, blanks around the braces and next to them,
and a root in front of a path that does not begin with it make no difference to the key that is
asked for.
-/
namespace DesignTokens.Reference

open Text (Blanks Trimmed foldAscii)

theorem keyChars?_eq_none {root value : List Char} :
    keyChars? root value = none ↔
      ¬ ∃ x, Text.trim value = '{' :: x ++ ['}'] ∧ ∃ c ∈ x, Text.isBlank c = false := by
  have visible (x : List Char) : Text.trim x ≠ [] ↔ ∃ c ∈ x, Text.isBlank c = false := by
    simp [Text.trim_eq_nil_iff, Blanks]
  simp only [keyChars?, Option.bind_eq_none_iff, inner?_eq_some, ← visible]
  constructor
  · rintro blank ⟨x, braced, present⟩
    have answer := blank _ ⟨x, braced, rfl⟩
    rw [if_neg (by simpa using present)] at answer
    cases answer
  · rintro blank path ⟨x, braced, rfl⟩
    by_cases empty : Text.trim x = []
    · rw [empty]
      rfl
    · exact absurd ⟨x, braced, empty⟩ blank

/-! Case of letters. -/

theorem inner?_foldAscii (value : List Char) :
    inner? (foldAscii value) = (inner? value).map foldAscii := by
  have opening (c : Char) : c.toLower = '{' ↔ c = '{' := Text.toLower_eq_iff (by decide) c
  have closing (c : Char) : c.toLower = '}' ↔ c = '}' := Text.toLower_eq_iff (by decide) c
  have braced (text x : List Char) :
      foldAscii text = '{' :: x ++ ['}'] ↔ ∃ y, text = '{' :: y ++ ['}'] ∧ foldAscii y = x := by
    constructor
    · intro same
      obtain ⟨front, back, rfl, hfront, hback⟩ := List.map_eq_append_iff.1 same
      obtain ⟨c, y, rfl, first, rfl⟩ := List.map_eq_cons_iff.1 hfront
      obtain ⟨d, rest, rfl, last, hrest⟩ := List.map_eq_cons_iff.1 hback
      obtain rfl := List.map_eq_nil_iff.1 hrest
      rw [(opening c).1 first, (closing d).1 last]
      exact ⟨y, rfl, rfl⟩
    · rintro ⟨y, rfl, rfl⟩
      rw [foldAscii, List.map_append, List.map_cons, (opening '{').2 rfl, List.map_singleton,
        (closing '}').2 rfl, foldAscii]
  ext path
  simp only [inner?_eq_some, Option.map_eq_some_iff, Text.trim_foldAscii, braced]
  constructor
  · rintro ⟨_, ⟨y, split, rfl⟩, rfl⟩
    exact ⟨_, ⟨y, split, rfl⟩, (Text.trim_foldAscii y).symm⟩
  · rintro ⟨_, ⟨y, split, rfl⟩, rfl⟩
    exact ⟨_, ⟨y, split, rfl⟩, Text.trim_foldAscii y⟩

theorem dropRoot_foldAscii (root path : List Char) :
    dropRoot (foldAscii root) (foldAscii path) = foldAscii (dropRoot root path) := by
  unfold dropRoot
  rw [Text.splitFirst_dot_foldAscii]
  cases Text.splitFirst '.' path with
  | none => rfl
  | some parts =>
      obtain ⟨head, rest⟩ := parts
      have heads : Text.sameIgnoringAsciiCase (foldAscii head) (foldAscii root) =
          Text.sameIgnoringAsciiCase head root := by
        simp only [Text.sameIgnoringAsciiCase, Text.foldAscii_foldAscii]
      have rests : (foldAscii rest).isEmpty = rest.isEmpty := List.isEmpty_map
      simp only [Option.map_some, Prod.map_apply, heads, rests]
      exact (apply_ite foldAscii _ rest path).symm

theorem keyChars?_foldAscii (root value : List Char) :
    keyChars? (foldAscii root) (foldAscii value) = keyChars? root value := by
  rw [keyChars?, keyChars?, inner?_foldAscii]
  cases inner? value with
  | none => rfl
  | some path =>
      have paths : (foldAscii path).isEmpty = path.isEmpty := List.isEmpty_map
      simp only [Option.map_some, Option.bind_some, paths, dropRoot_foldAscii,
        Text.lowercase_foldAscii]

theorem key?_eq_of_same_case {root root' value value' : String}
    (roots : foldAscii root'.toList = foldAscii root.toList)
    (values : foldAscii value'.toList = foldAscii value.toList) :
    key? root' value' = key? root value := by
  rw [key?, key?, ← keyChars?_foldAscii, roots, values, keyChars?_foldAscii]

/-! Blanks, and the root. -/

def braced (path : List Char) : String := String.ofList ('{' :: path ++ ['}'])

def padded (before : List Char) (value : String) (after : List Char) : String :=
  String.ofList (before ++ value.toList ++ after)

theorem key?_padded {before after : List Char} (front : Blanks before) (back : Blanks after)
    (root value : String) : key? root (padded before value after) = key? root value := by
  rw [key?, key?, keyChars?, keyChars?, inner?, inner?, padded, String.toList_ofList,
    Text.trim_around front back]

theorem key?_braced_padded {front back : List Char} (hfront : Blanks front) (hback : Blanks back)
    (root : String) (path : List Char) :
    key? root (braced (front ++ path ++ back)) = key? root (braced path) := by
  rw [key?, key?, keyChars?, keyChars?, braced, braced, String.toList_ofList, String.toList_ofList,
    inner?_braced, inner?_braced, Text.trim_around hfront hback]

/-- Nothing is dropped from a path that begins with something other than the root. -/
theorem dropRoot_eq_self {root path : List Char}
    (other : ∀ head rest, path = head ++ '.' :: rest → '.' ∉ head →
      Text.sameIgnoringAsciiCase head root = false) : dropRoot root path = path := by
  unfold dropRoot
  cases split : Text.splitFirst '.' path with
  | none => rfl
  | some parts =>
      obtain ⟨head, rest⟩ := parts
      obtain ⟨whole, noDot⟩ := Text.splitFirst_eq_some split
      simp [other head rest whole noDot]

theorem key?_braced {root : String} {path : List Char} (present : path ≠ [])
    (trimmed : Trimmed path) :
    key? root (braced path) =
      some (String.ofList (Text.lowercase (dropRoot root.toList path))) := by
  rw [key?, keyChars?, braced, String.toList_ofList, inner?_braced, Text.trim_eq_self trimmed,
    Option.bind_some, if_neg (by simpa using present), Option.map_some]

theorem trimmed_behind_root {root path : List Char} (hroot : Trimmed root) (present : path ≠ [])
    (hpath : Trimmed path) : Trimmed (root ++ '.' :: path) := by
  cases root with
  | nil =>
      have dot : Trimmed ['.'] := by decide
      exact dot.append hpath [] (by simp) present
  | cons c rest => simpa using hroot.append hpath ['.'] (by simp) present

theorem key?_behind_root {root : String} {path : List Char} (hroot : Trimmed root.toList)
    (noDot : '.' ∉ root.toList) (present : path ≠ []) (hpath : Trimmed path)
    (other : ∀ head rest, path = head ++ '.' :: rest → '.' ∉ head →
      Text.sameIgnoringAsciiCase head root.toList = false) :
    key? root (braced path) = some (String.ofList (Text.lowercase path)) ∧
      key? root (braced (root.toList ++ '.' :: path)) = key? root (braced path) := by
  have plain : key? root (braced path) = some (String.ofList (Text.lowercase path)) := by
    rw [key?_braced present hpath, dropRoot_eq_self other]
  refine ⟨plain, ?_⟩
  rw [plain, key?_braced (by simp) (trimmed_behind_root hroot present hpath),
    dropRoot_append noDot present]

/-- A value is a reference if there is more than blanks between its braces. Which key it asks for
depends neither on the case of ASCII letters nor on blanks around the braces and next to them, and
the root may stand in front of any path that does not begin with it. -/
theorem key?_ignores_spelling (root value : String) :
    (key? root value = none ↔
        ¬ ∃ x, Text.trim value.toList = '{' :: x ++ ['}'] ∧ ∃ c ∈ x, Text.isBlank c = false) ∧
      (∀ root' value', foldAscii root'.toList = foldAscii root.toList →
        foldAscii value'.toList = foldAscii value.toList →
          key? root' value' = key? root value) ∧
      (∀ before after, Blanks before → Blanks after →
        key? root (padded before value after) = key? root value) ∧
      (∀ path front back, Blanks front → Blanks back →
        key? root (braced (front ++ path ++ back)) = key? root (braced path)) ∧
      ∀ path, Trimmed root.toList → '.' ∉ root.toList → path ≠ [] → Trimmed path →
        (∀ head rest, path = head ++ '.' :: rest → '.' ∉ head →
          Text.sameIgnoringAsciiCase head root.toList = false) →
            key? root (braced path) = some (String.ofList (Text.lowercase path)) ∧
              key? root (braced (root.toList ++ '.' :: path)) = key? root (braced path) := by
  refine ⟨?_, fun _ _ => key?_eq_of_same_case, fun _ _ front back => key?_padded front back root
    value, fun path _ _ front back => key?_braced_padded front back root path,
    fun _ => key?_behind_root⟩
  rw [key?, Option.map_eq_none_iff, keyChars?_eq_none]

/-- Another case of the root and of the path, blanks in all four places, and no root at all. -/
theorem key?_ignores_spelling_indigo :
    key? "Colors" "{Colors.Indigo.ΑΣ}" = some "indigo.ας" ∧
      key? "cOLORS" "{COLORS.indiGO.ΑΣ}" = some "indigo.ας" ∧
      key? "Colors" (padded ['\n'] "{Colors.Indigo.ΑΣ}" [' ']) = some "indigo.ας" ∧
      key? "Colors" (braced (['\t'] ++ "Colors.Indigo.ΑΣ".toList ++ ['\u00a0'])) =
        some "indigo.ας" ∧
      key? "Colors" (braced "Indigo.ΑΣ".toList) = some "indigo.ας" ∧
      key? "Colors" (braced [' ', '\t']) = none := by
  have asks : key? "Colors" "{Colors.Indigo.ΑΣ}" = some "indigo.ας" := by decide +kernel
  have other : ∀ head rest, "Indigo.ΑΣ".toList = head ++ '.' :: rest → '.' ∉ head →
      Text.sameIgnoringAsciiCase head "Colors".toList = false := by
    intro head rest split noDot
    have parts := Text.splitFirst_append noDot rest
    rw [← split] at parts
    have known : Text.splitFirst '.' "Indigo.ΑΣ".toList =
        some ("Indigo".toList, "ΑΣ".toList) := by decide
    obtain ⟨rfl, -⟩ := Prod.mk.inj (Option.some.inj (known.symm.trans parts))
    decide
  obtain ⟨-, cases, around, inside, behind⟩ := key?_ignores_spelling "Colors" "{Colors.Indigo.ΑΣ}"
  have within := inside "Colors.Indigo.ΑΣ".toList ['\t'] ['\u00a0'] (by decide) (by decide)
  have bare := behind "Indigo.ΑΣ".toList (by decide) (by decide) (by decide) (by decide) other
  exact ⟨asks, (cases _ _ (by decide) (by decide)).trans asks,
    (around _ _ (by decide) (by decide)).trans asks, within.trans asks, bare.2.symm.trans asks,
    by decide +kernel⟩

end DesignTokens.Reference
