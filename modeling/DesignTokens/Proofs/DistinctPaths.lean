import DesignTokens.Proofs.FlatteningOrder
import Mathlib.Data.Set.Card

/-!
Which leaves share a path. Where no key has a dot and the keys of one object differ in lower case,
the path of a leaf tells its keys, with one exception: empty keys at the top leave no trace in it.
So flattening loses a leaf exactly when another one differs from it in nothing but such keys.
-/
namespace DesignTokens

namespace Palette

/-- The keys of one object: none has a dot and no two are the same in lower case. -/
def KeysDistinct (members : Table String Json) : Prop :=
  (∀ key ∈ members.keys, '.' ∉ key.toList) ∧ (members.keys.map lowercase).Nodup

instance (members : Table String Json) : Decidable (KeysDistinct members) :=
  inferInstanceAs (Decidable (_ ∧ _))

/-- So it is with every object of a tree, the tree itself and the leaves included. -/
inductive NamedDistinctly : Table String Json → Prop
  | node {members : Table String Json} (own : KeysDistinct members)
      (below : ∀ member ∈ members.entries, ∀ child, member.2.members? = some child →
        NamedDistinctly child) : NamedDistinctly members

theorem NamedDistinctly.own {members : Table String Json} (h : NamedDistinctly members) :
    KeysDistinct members := by
  cases h with
  | node own below => exact own

theorem mem_keys_of_objectAt? {members child : Table String Json} {key : String}
    (h : Json.objectAt? members key = some child) : key ∈ members.keys := by
  obtain ⟨value, found, -⟩ := Option.bind_eq_some_iff.1 h
  exact Table.mem_keys.2 ⟨value, found⟩

theorem NamedDistinctly.child {members child : Table String Json} {key : String}
    (h : NamedDistinctly members) (here : Json.objectAt? members key = some child) :
    NamedDistinctly child := by
  obtain ⟨value, found, object⟩ := Option.bind_eq_some_iff.1 here
  cases h with
  | node own below => exact below (key, value) (Table.find?_eq_some.1 found) child object

theorem Reaches.leaf_unique {tree : Table String Json} {keys : List String} {leaf leaf' : Leaf}
    (h : Reaches tree keys leaf) (h' : Reaches tree keys leaf') : leaf = leaf' := by
  induction h with
  | leaf here isLeaf =>
      cases h' with
      | leaf here' isLeaf' =>
          obtain rfl := Option.some.inj (here.symm.trans here')
          exact Option.some.inj (isLeaf.symm.trans isLeaf')
      | branch _ _ below' => exact absurd rfl below'.ne_nil
  | branch here isBranch below ih =>
      cases h' with
      | leaf => exact absurd rfl below.ne_nil
      | branch here' isBranch' below' =>
          obtain rfl := Option.some.inj (here.symm.trans here')
          exact ih below'

theorem Reaches.noDot {tree : Table String Json} {keys : List String} {leaf : Leaf}
    (h : Reaches tree keys leaf) (named : NamedDistinctly tree) :
    ∀ key ∈ keys, '.' ∉ key.toList := by
  induction h with
  | leaf here isLeaf =>
      simpa using named.own.1 _ (mem_keys_of_objectAt? here)
  | branch here isBranch below ih =>
      exact List.forall_mem_cons.2
        ⟨named.own.1 _ (mem_keys_of_objectAt? here), ih (named.child here)⟩

/-- In such a tree the keys in lower case lead to one leaf only. -/
theorem Reaches.keys_unique {tree : Table String Json} {keys keys' : List String}
    {leaf leaf' : Leaf} (h : Reaches tree keys leaf) (h' : Reaches tree keys' leaf')
    (named : NamedDistinctly tree) (same : keys.map lowercase = keys'.map lowercase) :
    keys = keys' := by
  have heads {members child child' : Table String Json} {key key' : String}
      (named : NamedDistinctly members) (here : Json.objectAt? members key = some child)
      (here' : Json.objectAt? members key' = some child')
      (same : lowercase key = lowercase key') : key = key' :=
    List.inj_on_of_nodup_map named.own.2 (mem_keys_of_objectAt? here)
      (mem_keys_of_objectAt? here') same
  induction h generalizing keys' with
  | leaf here isLeaf =>
      cases h' with
      | leaf here' isLeaf' => rw [heads named here here' (List.cons.inj same).1]
      | branch _ _ below' => exact absurd (List.cons.inj same).2.symm (by simpa using below'.ne_nil)
  | branch here isBranch below ih =>
      cases h' with
      | leaf => exact absurd (List.cons.inj same).2 (by simpa using below.ne_nil)
      | branch here' isBranch' below' =>
          obtain ⟨first, rest⟩ := List.cons.inj same
          obtain rfl := heads named here here' first
          obtain rfl := Option.some.inj (here.symm.trans here')
          rw [ih below' (named.child here) rest]

/-- The same keys in lower case, empty ones at the top left out. -/
def SameBelowTop (keys keys' : List String) : Prop :=
  (keys.dropWhile (· = "")).map lowercase = (keys'.dropWhile (· = "")).map lowercase

theorem intercalate_dot_ne_empty {first : String} (h : first ≠ "") (rest : List String) :
    ".".intercalate (first :: rest) ≠ "" := by
  intro empty
  have letters := congrArg String.toList empty
  rw [toList_intercalate_dot] at letters
  exact h (String.toList_eq_nil_iff.1 (List.append_eq_nil_iff.1 letters).1)

theorem intercalate_dot_injective {xs ys : List String} (hx : ∀ x ∈ xs, '.' ∉ x.toList)
    (hy : ∀ y ∈ ys, '.' ∉ y.toList) (headX : ∀ x ∈ xs.head?, x ≠ "")
    (headY : ∀ y ∈ ys.head?, y ≠ "") (same : ".".intercalate xs = ".".intercalate ys) :
    xs = ys := by
  have taken {first : String} {rest : List String} (h : ∀ x ∈ first :: rest, '.' ∉ x.toList) :
      Text.pieces (· = '.') (".".intercalate (first :: rest)).toList =
        (first :: rest).map String.toList := by
    rw [String.toList_intercalate]
    exact Text.pieces_eq_iff.2 ⟨by simp, List.forall_mem_map.2 h, rfl⟩
  cases xs with
  | nil =>
      cases ys with
      | nil => rfl
      | cons y ys => exact absurd same.symm (intercalate_dot_ne_empty (headY y rfl) ys)
  | cons x xs =>
      cases ys with
      | nil => exact absurd same (intercalate_dot_ne_empty (headX x rfl) xs)
      | cons y ys =>
          have pieces := taken hx
          rw [same, taken hy] at pieces
          exact (List.map_injective_iff.2 (fun _ _ => String.toList_inj.1) pieces).symm

theorem dottedPath_eq_iff {keys keys' : List String} (noDot : ∀ key ∈ keys, '.' ∉ key.toList)
    (noDot' : ∀ key ∈ keys', '.' ∉ key.toList) :
    dottedPath keys = dottedPath keys' ↔ SameBelowTop keys keys' := by
  have plain {keys : List String} (h : ∀ key ∈ keys, '.' ∉ key.toList) :
      ∀ segment ∈ (keys.dropWhile (· = "")).map lowercase, '.' ∉ segment.toList := by
    rw [List.forall_mem_map]
    intro key hkey dot
    rw [lowercase, String.toList_ofList] at dot
    exact h key (List.dropWhile_subset _ hkey) (Text.dot_mem_of_mem_lowercase dot)
  have head (keys : List String) :
      ∀ segment ∈ ((keys.dropWhile (· = "")).map lowercase).head?, segment ≠ "" := by
    intro segment hsegment
    rw [List.head?_map] at hsegment
    obtain ⟨key, hkey, rfl⟩ := Option.map_eq_some_iff.1 hsegment
    have top := List.head?_dropWhile_not (fun key => decide (key = "")) keys
    rw [hkey] at top
    exact lowercase_ne_empty (of_decide_eq_false top)
  constructor
  · intro same
    exact intercalate_dot_injective (plain noDot) (plain noDot') (head keys) (head keys') same
  · intro same
    exact congrArg (".".intercalate ·) same

/-- Two leaves differ in nothing but empty keys at the top. -/
def Overlaid (tree : Table String Json) : Prop :=
  ∃ keys leaf keys' leaf', Reaches tree keys leaf ∧ Reaches tree keys' leaf' ∧ keys ≠ keys' ∧
    SameBelowTop keys keys'

/-- In such a tree two leaves have one path only if empty keys at the top are all they differ in. -/
theorem NamedDistinctly.same_path_iff {tree : Table String Json} (named : NamedDistinctly tree)
    {keys keys' : List String} {leaf leaf' : Leaf} (h : Reaches tree keys leaf)
    (h' : Reaches tree keys' leaf') :
    dottedPath keys = dottedPath keys' ↔ SameBelowTop keys keys' :=
  dottedPath_eq_iff (h.noDot named) (h'.noDot named)

theorem nodup_leavesInOrder (tree : Table String Json) : (leavesInOrder tree).Nodup := by
  refine (ordered_leavesInOrder tree).imp ?_
  rintro a b before rfl
  exact before.asymm before

theorem ncard_reached (tree : Table String Json) :
    {leaf : List String × Leaf | Reaches tree leaf.1 leaf.2}.ncard =
      (leavesInOrder tree).length := by
  have listed : {leaf : List String × Leaf | Reaches tree leaf.1 leaf.2} =
      ((leavesInOrder tree).toFinset : Set (List String × Leaf)) := by
    ext leaf
    simp [← mem_leavesInOrder]
  rw [listed, Set.ncard_coe_finset, List.toFinset_card_of_nodup (nodup_leavesInOrder tree)]

theorem size_flatten (tree : Table String Json) :
    (flatten tree).size =
      ((leavesInOrder tree).map fun leaf => dottedPath leaf.1).toFinset.card := by
  have nodup := Table.nodup_of_ascending (flatten tree).ascending_keys
  have keys : (flatten tree).keys.toFinset =
      ((leavesInOrder tree).map fun leaf => dottedPath leaf.1).toFinset := by
    ext path
    simp only [List.mem_toFinset, mem_keys_flatten, List.mem_map, Prod.exists, mem_leavesInOrder,
      pathBelow_root, eq_comm]
  rw [← keys, List.toFinset_card_of_nodup nodup, Table.keys, List.length_map, Table.size]

theorem nodup_paths_iff {tree : Table String Json} (named : NamedDistinctly tree) :
    ((leavesInOrder tree).map fun leaf => dottedPath leaf.1).Nodup ↔ ¬ Overlaid tree := by
  rw [List.nodup_map_iff_inj_on (nodup_leavesInOrder tree)]
  constructor
  · intro injective overlaid
    obtain ⟨keys, leaf, keys', leaf', h, h', differ, same⟩ := overlaid
    have path := (named.same_path_iff h h').2 same
    have one := injective _ (mem_leavesInOrder.2 h) _ (mem_leavesInOrder.2 h') path
    exact differ (congrArg Prod.fst one)
  · rintro apart ⟨keys, leaf⟩ h ⟨keys', leaf'⟩ h' path
    have reaches := mem_leavesInOrder.1 h
    have reaches' := mem_leavesInOrder.1 h'
    have same := (named.same_path_iff reaches reaches').1 path
    obtain rfl : keys = keys' := by
      by_contra differ
      exact apart ⟨keys, leaf, keys', leaf', reaches, reaches', differ, same⟩
    rw [reaches.leaf_unique reaches']

/-- An object that is no leaf must stand under the empty key for leaves to stand below it. -/
theorem not_overlaid {tree : Table String Json} (named : NamedDistinctly tree)
    (top : ∀ child, Json.objectAt? tree "" = some child → (Leaf.ofMembers? child).isSome) :
    ¬ Overlaid tree := by
  have recovered {keys : List String} {leaf : Leaf} (h : Reaches tree keys leaf) :
      keys.map lowercase = if (keys.dropWhile (· = "")).map lowercase = [] then [""]
        else (keys.dropWhile (· = "")).map lowercase := by
    cases h with
    | @leaf _ child key _ here isLeaf =>
        by_cases empty : key = ""
        · subst empty
          rfl
        · simp [empty]
    | @branch _ child key keys _ here isBranch below =>
        have nonempty : key ≠ "" := by
          rintro rfl
          have isLeaf := top child here
          rw [isBranch] at isLeaf
          cases isLeaf
        simp [nonempty]
  intro overlaid
  obtain ⟨keys, leaf, keys', leaf', h, h', differ, same⟩ := overlaid
  refine differ (h.keys_unique h' named ?_)
  rw [recovered h, recovered h', same]

/-- In a tree without dots in its keys and without keys of one object that are the same in lower
case, leaves share a path exactly when they differ in nothing but empty keys at the top. Flattening
has an entry for every leaf exactly when no two leaves do so, and then each is found under its own
path. For that it is enough that under the empty key at the top there is no object or a leaf. -/
theorem flatten_loses_no_leaf_iff {tree : Table String Json} (named : NamedDistinctly tree) :
    (∀ keys leaf keys' leaf', Reaches tree keys leaf → Reaches tree keys' leaf' →
      (dottedPath keys = dottedPath keys' ↔ SameBelowTop keys keys')) ∧
    ((flatten tree).size = {leaf : List String × Leaf | Reaches tree leaf.1 leaf.2}.ncard ↔
      ¬ Overlaid tree) ∧
    (¬ Overlaid tree → ∀ keys leaf, Reaches tree keys leaf →
      (flatten tree).find? (dottedPath keys) = some leaf) ∧
    ((∀ child, Json.objectAt? tree "" = some child → (Leaf.ofMembers? child).isSome) →
      ¬ Overlaid tree) := by
  refine ⟨?_, ?_, ?_, not_overlaid named⟩
  · intro keys leaf keys' leaf' h h'
    exact named.same_path_iff h h'
  · have distinct := nodup_paths_iff named
    rw [← Multiset.coe_nodup, ← Multiset.toFinset_card_eq_card_iff_nodup] at distinct
    rw [← distinct, size_flatten, ncard_reached]
    simp
  · intro apart keys leaf h
    refine find?_flatten.2 ⟨keys, h, (pathBelow_root keys).symm, ?_⟩
    intro others other hother path
    rw [pathBelow_root, named.same_path_iff h hother] at path
    by_contra differ
    exact apart ⟨keys, leaf, others, other, h, hother, fun same => differ (.inl same.symm), path⟩

theorem NamedDistinctly.ofList {es : List (String × Json)} (own : KeysDistinct (.ofList es))
    (below : ∀ e ∈ es, ∀ members, e.2 = .object members → NamedDistinctly (.ofList members)) :
    NamedDistinctly (.ofList es) := by
  refine .node own ?_
  rintro ⟨key, value⟩ hmember child object
  have found := Table.find?_eq_some.2 hmember
  rw [← List.map_id es, Table.find?_ofList_map_eq_some] at found
  obtain ⟨before, e, after, rfl, -, rfl⟩ := found
  have written := List.mem_append_right before (List.mem_cons_self (a := (key, value)) (l := after))
  cases value with
  | object members =>
      obtain rfl := Option.some.inj object
      exact below _ written members rfl
  | null | bool _ | number _ | string _ | array _ => cases object

theorem namedDistinctly_leaf (kind value : String) :
    NamedDistinctly (.ofList [("type", .string kind), ("value", .string value)]) := by
  have ascending : ["type", "value"].Pairwise (· < ·) := by decide
  have keys : (Table.ofList [("type", Json.string kind), ("value", .string value)]).keys =
      ["type", "value"] := Table.keys_ofList_of_ascending ascending
  refine .ofList ?_ (by simp)
  rw [KeysDistinct, keys]
  decide

/-- Only one leaf stands below the empty key at the top, and a key that ends a path is empty too. -/
theorem flatten_loses_no_leaf_iff_unnamed :
    let leaf (value : String) := Json.object [("type", .string "color"), ("value", .string value)]
    let tree : Table String Json :=
      .ofList [("", .object [("b", leaf "#111111")]), ("A", .object [("", leaf "#222222")])]
    NamedDistinctly tree ∧ ¬ Overlaid tree ∧
      (flatten tree).find? "a." = some ⟨"color", "#222222"⟩ := by
  intro leaf tree
  have named : NamedDistinctly tree := by
    have below (key value : String) (noDot : '.' ∉ key.toList) :
        NamedDistinctly (.ofList [(key, leaf value)]) := by
      refine .ofList ?_ (by simpa [leaf] using namedDistinctly_leaf "color" value)
      have keys : (Table.ofList [(key, leaf value)]).keys = [key] := rfl
      simpa [KeysDistinct, keys] using noDot
    refine .ofList (by decide) ?_
    simpa using ⟨below "b" "#111111" (by decide), below "" "#222222" (by decide)⟩
  obtain ⟨-, counted, found, -⟩ := flatten_loses_no_leaf_iff named
  have count : (flatten tree).size = (leavesInOrder tree).length := by decide +kernel
  have apart := counted.1 (count.trans (ncard_reached tree).symm)
  have reaches : Reaches tree ["A", ""] ⟨"color", "#222222"⟩ :=
    mem_leavesInOrder.1 (by decide +kernel)
  have path : dottedPath ["A", ""] = "a." := by decide
  exact ⟨named, apart, path ▸ found apart ["A", ""] _ reaches⟩

/-- Below an empty key at the top a leaf has the path of another one and takes its place. -/
theorem not_every_leaf_kept :
    let leaf (value : String) := Json.object [("type", .string "color"), ("value", .string value)]
    let tree : Table String Json :=
      .ofList [("", .object [("a", leaf "#111111")]), ("a", leaf "#222222")]
    NamedDistinctly tree ∧ Reaches tree ["", "a"] ⟨"color", "#111111"⟩ ∧
      Reaches tree ["a"] ⟨"color", "#222222"⟩ ∧ dottedPath ["", "a"] = dottedPath ["a"] ∧
      (flatten tree).size < {leaf : List String × Leaf | Reaches tree leaf.1 leaf.2}.ncard ∧
      (flatten tree).find? (dottedPath ["a"]) ≠ some ⟨"color", "#222222"⟩ := by
  intro leaf tree
  refine ⟨?_, ?_, ?_, by decide, ?_, by decide +kernel⟩
  · have below : NamedDistinctly (.ofList [("a", leaf "#111111")]) :=
      .ofList (by decide) (by simpa [leaf] using namedDistinctly_leaf "color" "#111111")
    refine .ofList (by decide) ?_
    simpa [leaf] using ⟨below, namedDistinctly_leaf "color" "#222222"⟩
  · exact mem_leavesInOrder.1 (by decide +kernel)
  · exact mem_leavesInOrder.1 (by decide +kernel)
  · rw [ncard_reached]
    decide +kernel

end Palette

end DesignTokens
