import DesignTokens.Proofs.FlatPaths
import DesignTokens.Proofs.TakingApart
import DesignTokens.Proofs.Trimming
import DesignTokens.Token.Reference

/-!
References to tokens by their own paths. A reference puts its path in lower case as a whole, while
flattening does so key by key, so a token is found under its own path unless a capital sigma turns.
-/
namespace DesignTokens

namespace Palette

theorem joinPath_of_ne_empty {path : String} (h : path ≠ "") (segment : String) :
    joinPath path segment = path ++ "." ++ segment := by
  rw [joinPath, if_neg]
  simpa using h

theorem pathBelow_of_ne_empty {path : String} (h : path ≠ "") (keys : List String) :
    (pathBelow path keys).toList =
      path.toList ++ Text.dotted (keys.map fun key => Text.lowercase key.toList) := by
  induction keys generalizing path with
  | nil => simp [pathBelow, Text.dotted]
  | cons key rest ih =>
      have joined := joinPath_of_ne_empty h (lowercase key)
      have nonempty : path ++ "." ++ lowercase key ≠ "" := by
        simp [String.append_eq_empty_iff, h]
      rw [pathBelow, List.foldl_cons, joined]
      change (pathBelow _ rest).toList = _
      rw [ih nonempty]
      simp [Text.dotted, lowercase]

/-- From the top, the path has the keys in lower case with dots between them. -/
theorem pathBelow_top {key : String} (h : key ≠ "") (rest : List String) :
    (pathBelow "" (key :: rest)).toList =
      Text.lowercase key.toList ++ Text.dotted (rest.map fun key => Text.lowercase key.toList) := by
  change (pathBelow (lowercase key) rest).toList = _
  rw [pathBelow_of_ne_empty (lowercase_ne_empty h), lowercase, String.toList_ofList]

end Palette

namespace Reference

/-- The reference to the token under some keys. -/
def spelled (root : String) (keys : List String) : String :=
  "\x7b" ++ root ++ String.join (keys.map fun key => "." ++ key) ++ "\x7d"

/-- A text that is there and needs no trimming. -/
def Plain (text : String) : Prop := text ≠ "" ∧ Text.Trimmed text.toList

instance (text : String) : Decidable (Plain text) :=
  inferInstanceAs (Decidable (text ≠ "" ∧ Text.Trimmed text.toList))

theorem inner?_eq_some {value path : List Char} :
    inner? value = some path ↔
      ∃ x, Text.trim value = '{' :: x ++ ['}'] ∧ Text.trim x = path := by
  unfold inner?
  constructor
  · intro h
    split at h
    · rename_i rest opened
      obtain ⟨x, closed, rfl⟩ := Option.map_eq_some_iff.1 h
      obtain rfl := Text.dropEnd?_eq_some.1 closed
      exact ⟨x, opened, rfl⟩
    · cases h
  · intro h
    obtain ⟨x, braced, rfl⟩ := h
    rw [braced]
    change (Text.dropEnd? ['}'] (x ++ ['}'])).map Text.trim = _
    rw [Text.dropEnd?_eq_some.2 rfl, Option.map_some]

theorem inner?_braced (path : List Char) :
    inner? ('{' :: path ++ ['}']) = some (Text.trim path) := by
  refine inner?_eq_some.2 ⟨path, Text.trim_eq_self ⟨?_, ?_⟩, rfl⟩
  · intro c hc
    obtain rfl := Option.some.inj hc
    decide
  · intro c hc
    rw [List.getLast?_append] at hc
    obtain rfl := Option.some.inj hc
    decide

theorem dropRoot_append {root rest : List Char} (noDot : '.' ∉ root) (nonempty : rest ≠ []) :
    dropRoot root (root ++ '.' :: rest) = rest := by
  rw [dropRoot, Text.splitFirst_append noDot]
  simp [Text.sameIgnoringAsciiCase_refl, nonempty]

theorem trimmed_rooted {root : String} {keys : List String} (hroot : Plain root)
    (hkeys : ∀ k ∈ keys, Plain k) :
    Text.Trimmed (root.toList ++ Text.dotted (keys.map String.toList)) := by
  cases List.eq_nil_or_concat keys with
  | inl empty => simpa [empty, Text.dotted] using hroot.2
  | inr split =>
      obtain ⟨init, last, rfl⟩ := split
      have hlast := hkeys last (by simp)
      have shape : root.toList ++ Text.dotted ((init.concat last).map String.toList) =
          root.toList ++ (Text.dotted (init.map String.toList) ++ ['.']) ++ last.toList := by
        simp [Text.dotted]
      rw [shape]
      exact hroot.2.append hlast.2 _ (by simpa using hroot.1) (by simpa using hlast.1)

/-- What a reference asks for: everything behind the root, in lower case as a whole. -/
theorem key?_spelled {root key : String} {rest : List String} (hroot : Plain root)
    (noDot : '.' ∉ root.toList) (hkeys : ∀ k ∈ key :: rest, Plain k) :
    key? root (spelled root (key :: rest)) =
      some (String.ofList
        (Text.lowercase (key.toList ++ Text.dotted (rest.map String.toList)))) := by
  have written : (spelled root (key :: rest)).toList =
      '{' :: (root.toList ++ Text.dotted ((key :: rest).map String.toList)) ++ ['}'] := by
    simp [spelled, Text.dotted, List.flatMap_map]
  have rooted : root.toList ++ Text.dotted ((key :: rest).map String.toList) =
      root.toList ++ '.' :: (key.toList ++ Text.dotted (rest.map String.toList)) := rfl
  have nonempty : key.toList ++ Text.dotted (rest.map String.toList) ≠ [] := by
    have := (hkeys key List.mem_cons_self).1
    simp [this]
  rw [key?, keyChars?, written, inner?_braced, Text.trim_eq_self (trimmed_rooted hroot hkeys),
    Option.bind_some, rooted, dropRoot_append noDot nonempty, if_neg (by simp)]
  rfl

end Reference

namespace Palette

theorem Reaches.ne_nil {tree : Table String Json} {keys : List String} {leaf : Leaf}
    (h : Reaches tree keys leaf) : keys ≠ [] := by
  cases h with
  | leaf => simp
  | branch => simp

/-- A reference that spells out the keys of a leaf asks for the path of that leaf unless a capital
sigma turns. If one does, what it finds, if anything, is another leaf. -/
theorem reference_finds_leaf_iff {tree : Table String Json} {keys : List String} {leaf : Leaf}
    {root : String} (reaches : Reaches tree keys leaf) (hkeys : ∀ k ∈ keys, Reference.Plain k)
    (hroot : Reference.Plain root) (noDot : '.' ∉ root.toList) :
    ∃ key, Reference.key? root (Reference.spelled root keys) = some key ∧
      (key = pathBelow "" keys ↔ ¬ Text.SigmaTurns (keys.map String.toList)) ∧
      (key ∈ (flatten tree).keys ↔
        ¬ Text.SigmaTurns (keys.map String.toList) ∨
          ∃ others otherLeaf, others ≠ keys ∧ Reaches tree others otherLeaf ∧
            key = pathBelow "" others) := by
  cases keys with
  | nil => exact absurd rfl reaches.ne_nil
  | cons first rest =>
      refine ⟨_, Reference.key?_spelled hroot noDot hkeys, ?_⟩
      generalize hkey : String.ofList
        (Text.lowercase (first.toList ++ Text.dotted (rest.map String.toList))) = key
      have own : key = pathBelow "" (first :: rest) ↔
          ¬ Text.SigmaTurns ((first :: rest).map String.toList) := by
        have path := pathBelow_top (hkeys first List.mem_cons_self).1 rest
        have turns := Text.lowercase_dotted first.toList (rest.map String.toList)
        rw [List.map_cons, ← turns, ← String.toList_inj, path, ← hkey, String.toList_ofList,
          List.map_map]
        rfl
      refine ⟨own, ?_⟩
      rw [mem_keys_flatten, ← own]
      constructor
      · intro h
        obtain ⟨others, otherLeaf, found, same⟩ := h
        by_cases itself : others = first :: rest
        · exact .inl (itself ▸ same)
        · exact .inr ⟨others, otherLeaf, itself, found, same⟩
      · intro h
        cases h with
        | inl same => exact ⟨_, leaf, reaches, same⟩
        | inr other =>
            obtain ⟨others, otherLeaf, -, found, same⟩ := other
            exact ⟨others, otherLeaf, found, same⟩

/-- An ordinary path, the same in lower case key by key and as a whole. -/
theorem reference_finds_leaf_iff_grey :
    ∃ key, Reference.key? "Colors" (Reference.spelled "Colors" ["Grey", "500"]) = some key ∧
      key ∈ (flatten (.ofList [("Grey", .object [("500",
        .object [("type", .string "color"), ("value", .string "#717680")])])])).keys := by
  have reaches : Reaches (.ofList [("Grey", .object [("500",
      .object [("type", .string "color"), ("value", .string "#717680")])])]) ["Grey", "500"]
      ⟨"color", "#717680"⟩ :=
    .branch rfl rfl (.leaf rfl rfl)
  have plain : ∀ k ∈ ["Grey", "500"], Reference.Plain k := by decide
  have root : Reference.Plain "Colors" := by decide
  obtain ⟨key, asked, -, found⟩ := reference_finds_leaf_iff reaches plain root (by decide)
  refine ⟨key, asked, found.2 (.inl (Text.not_sigmaTurns ?_))⟩
  decide

/-- A sigma in front of a dot is final in its key but not in the path, which puts the token below it
out of reach. -/
theorem not_every_reference_finds_leaf :
    ¬ ∀ (tree : Table String Json) (keys : List String) (leaf : Leaf) (root : String),
      Reaches tree keys leaf → (∀ k ∈ keys, Reference.Plain k) → Reference.Plain root →
        '.' ∉ root.toList →
          ∃ key, Reference.key? root (Reference.spelled root keys) = some key ∧
            key ∈ (flatten tree).keys := by
  intro every
  have reaches : Reaches (.ofList [("ΑΣ", .object [("Β",
      .object [("type", .string "color"), ("value", .string "#112233")])])]) ["ΑΣ", "Β"]
      ⟨"color", "#112233"⟩ :=
    .branch rfl rfl (.leaf rfl rfl)
  have plain : ∀ k ∈ ["ΑΣ", "Β"], Reference.Plain k := by decide
  have root : Reference.Plain "Colors" := by decide
  obtain ⟨key, asked, found⟩ := every _ _ _ _ reaches plain root (by decide)
  have asks : Reference.key? "Colors" (Reference.spelled "Colors" ["ΑΣ", "Β"]) = some "ασ.β" := by
    decide +kernel
  obtain rfl := Option.some.inj (asks.symm.trans asked)
  revert found
  decide +kernel

end Palette

end DesignTokens
