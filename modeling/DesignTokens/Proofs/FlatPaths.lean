import DesignTokens.Palette.Flatten
import DesignTokens.Proofs.Lookup
import DesignTokens.Proofs.Lowercasing
import Mathlib.Data.List.Basic

/-!
The paths of a flattened tree. They are the paths of the leaves that can be reached, no more and no
less; two leaves may share one.
-/
namespace DesignTokens

/-- The object under a key, if there is one. -/
def Json.objectAt? (members : Table String Json) (key : String) : Option (Table String Json) :=
  (members.find? key).bind Json.members?

namespace Palette

/-- The leaf under some keys, with no other leaf on the way to it. -/
inductive Reaches : Table String Json → List String → Leaf → Prop
  | leaf {members child : Table String Json} {key : String} {leaf : Leaf}
      (here : Json.objectAt? members key = some child)
      (isLeaf : Leaf.ofMembers? child = some leaf) : Reaches members [key] leaf
  | branch {members child : Table String Json} {key : String} {keys : List String} {leaf : Leaf}
      (here : Json.objectAt? members key = some child)
      (isBranch : Leaf.ofMembers? child = none) (below : Reaches child keys leaf) :
      Reaches members (key :: keys) leaf

/-- The path of keys below a path. -/
def pathBelow (path : String) (keys : List String) : String :=
  keys.foldl (fun path key => joinPath path (lowercase key)) path

/-- The branch has a leaf with this path. -/
def LeadsDownTo (b : Branch) (path : String) : Prop :=
  ∃ keys leaf, Reaches b.members keys leaf ∧ path = pathBelow b.path keys

theorem mem_children {b c : Branch} :
    c ∈ b.children ↔ ∃ key, Json.objectAt? b.members key = some c.members ∧
      c.path = joinPath b.path (lowercase key) := by
  simp only [Branch.children, List.mem_filterMap, Option.map_eq_some_iff, Json.objectAt?,
    Option.bind_eq_some_iff, Table.find?_eq_some]
  constructor
  · intro h
    obtain ⟨⟨key, value⟩, hmem, members, hmembers, rfl⟩ := h
    exact ⟨key, ⟨value, hmem, hmembers⟩, rfl⟩
  · intro h
    obtain ⟨key, ⟨value, hmem, hmembers⟩, hpath⟩ := h
    exact ⟨(key, value), hmem, c.members, hmembers, by rw [← hpath]⟩

/-- A leaf below a branch is one of its children or lies below one. -/
theorem leadsDownTo_iff {b : Branch} {path : String} :
    LeadsDownTo b path ↔ ∃ c ∈ b.children,
      ((c.leaf?).isSome ∧ path = c.path) ∨ (c.leaf? = none ∧ LeadsDownTo c path) := by
  constructor
  · intro h
    obtain ⟨keys, leaf, reaches, rfl⟩ := h
    cases reaches with
    | leaf here isLeaf =>
        exact ⟨⟨_, _⟩, mem_children.2 ⟨_, here, rfl⟩, .inl ⟨by rw [Branch.leaf?, isLeaf]; rfl, rfl⟩⟩
    | branch here isBranch below =>
        exact ⟨⟨_, _⟩, mem_children.2 ⟨_, here, rfl⟩, .inr ⟨isBranch, _, leaf, below, rfl⟩⟩
  · intro h
    obtain ⟨c, hc, h⟩ := h
    obtain ⟨key, here, hpath⟩ := mem_children.1 hc
    cases h with
    | inl found =>
        obtain ⟨leaf, isLeaf⟩ := Option.isSome_iff_exists.1 found.1
        exact ⟨[key], leaf, .leaf here isLeaf, by rw [found.2, hpath]; rfl⟩
    | inr later =>
        obtain ⟨isBranch, keys, leaf, below, rfl⟩ := later
        exact ⟨key :: keys, leaf, .branch here isBranch below, by rw [hpath]; rfl⟩

theorem mem_keys_enterLeaves {flat : Palette} {children : List Branch} {path : String} :
    path ∈ (enterLeaves flat children).keys ↔
      path ∈ flat.keys ∨ ∃ c ∈ children, (c.leaf?).isSome ∧ path = c.path := by
  induction children generalizing flat with
  | nil => simp [enterLeaves]
  | cons c rest ih =>
      have step : enterLeaves flat (c :: rest) =
          enterLeaves (c.leaf?.elim flat (flat.insert c.path)) rest := rfl
      rw [step, ih, List.exists_mem_cons_iff]
      cases c.leaf? with
      | none => simp
      | some leaf => simp [Table.mem_keys_insert, or_assoc, or_left_comm]

theorem mem_keys_visit {flat : Palette} {pending : List Branch} {path : String} :
    path ∈ (visit flat pending).keys ↔
      path ∈ flat.keys ∨ ∃ b ∈ pending, LeadsDownTo b path := by
  fun_induction visit flat pending with
  | case1 => simp
  | case2 flat b rest ih =>
      have branches : (∃ c ∈ b.branches.reverse, LeadsDownTo c path) ↔
          ∃ c ∈ b.children, c.leaf? = none ∧ LeadsDownTo c path := by
        simp only [Branch.branches, List.mem_reverse, List.mem_filter, Option.isNone_iff_eq_none,
          and_assoc]
      have pending : (∃ c ∈ b.branches.reverse ++ rest, LeadsDownTo c path) ↔
          (∃ c ∈ b.branches.reverse, LeadsDownTo c path) ∨ ∃ c ∈ rest, LeadsDownTo c path := by
        simp only [List.mem_append, or_and_right, exists_or]
      rw [ih, mem_keys_enterLeaves, List.exists_mem_cons_iff, leadsDownTo_iff, pending, branches]
      simp only [and_or_left, exists_or, or_assoc]

/-- Flattening loses the path of no leaf and makes up none. -/
theorem mem_keys_flatten {tree : Table String Json} {path : String} :
    path ∈ (flatten tree).keys ↔
      ∃ keys leaf, Reaches tree keys leaf ∧ path = pathBelow "" keys := by
  rw [flatten, mem_keys_visit]
  simp [LeadsDownTo, Table.keys, Table.empty]

end Palette

end DesignTokens
