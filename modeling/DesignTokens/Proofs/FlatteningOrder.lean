import DesignTokens.Proofs.OwnPaths
import Mathlib.Logic.Function.Iterate

/-!
The order of flattening. The pending branches are visited in rounds, and what a round does not
finish is put in front of the rest; all the same the leaves are entered as a plain recursion over
the tree would enter them, the leaves right below a node first and then, last key first, what lies
deeper. So of several leaves with one path the last in this order is the one that the palette keeps.
-/
namespace DesignTokens

namespace Palette

/-- The leaves right below a node, in ascending order of their keys. -/
def ownLeaves (members : Table String Json) : List (String × Leaf) := members.select Leaf.ofJson?

/-- The objects right below a node that are no leaves, in ascending order of their keys. -/
def innerNodes (members : Table String Json) : List (String × Table String Json) :=
  members.select fun value => value.members?.filter fun child => (Leaf.ofMembers? child).isNone

theorem memberWeight_le {member : String × Json} {es : List (String × Json)} (h : member ∈ es) :
    Json.memberWeight member ≤ Json.membersWeight es := by
  induction es with
  | nil => cases h
  | cons e rest ih =>
      rw [Json.membersWeight]
      cases h with
      | head => exact Nat.le_add_right _ _
      | tail _ h => exact Nat.le_add_left_of_le (ih h)

theorem weight_of_members? {value : Json} {child : Table String Json}
    (h : value.members? = some child) : Json.membersWeight child.entries < value.weight := by
  cases value with
  | object members =>
      obtain rfl := Option.some.inj h
      have := Json.membersWeight_ofList members
      rw [Json.weight]
      omega
  | null | bool _ | number _ | string _ | array _ => cases h

theorem mem_innerNodes {members child : Table String Json} {key : String} :
    (key, child) ∈ innerNodes members ↔
      Json.objectAt? members key = some child ∧ Leaf.ofMembers? child = none := by
  simp only [innerNodes, Table.mem_select, Json.objectAt?, Option.bind_eq_some_iff,
    Option.filter_eq_some_iff, Option.isNone_iff_eq_none, ← and_assoc, exists_and_right]

theorem mem_ownLeaves {members : Table String Json} {key : String} {leaf : Leaf} :
    (key, leaf) ∈ ownLeaves members ↔
      ∃ child, Json.objectAt? members key = some child ∧ Leaf.ofMembers? child = some leaf := by
  rw [ownLeaves, Table.mem_select, ← Option.bind_eq_some_iff, Json.objectAt?, Option.bind_assoc]
  rfl

theorem weight_of_mem_innerNodes {members : Table String Json} {node : String × Table String Json}
    (h : node ∈ innerNodes members) :
    Json.membersWeight node.2.entries < Json.membersWeight members.entries := by
  obtain ⟨value, found, child⟩ := Option.bind_eq_some_iff.1 (mem_innerNodes.1 h).1
  have below : Json.membersWeight node.2.entries < value.weight := weight_of_members? child
  have within := memberWeight_le (Table.find?_eq_some.1 found)
  rw [Json.memberWeight] at within
  omega

/-- Flattening as a recursion over the tree. -/
def flattenBelow (flat : Palette) (path : String) (members : Table String Json) : Palette :=
  (innerNodes members).reverse.attach.foldl
    (fun flat node => flattenBelow flat (joinPath path (lowercase node.1.1)) node.1.2)
    ((ownLeaves members).foldl
      (fun flat own => flat.insert (joinPath path (lowercase own.1)) own.2) flat)
termination_by Json.membersWeight members.entries
decreasing_by exact weight_of_mem_innerNodes (List.mem_reverse.1 node.2)

/-- The keys of all leaves below a node, in the order in which flattening enters them. -/
def leavesInOrder (members : Table String Json) : List (List String × Leaf) :=
  ((ownLeaves members).map fun own => ([own.1], own.2)) ++
    (innerNodes members).reverse.attach.flatMap fun node =>
      (leavesInOrder node.1.2).map fun below => (node.1.1 :: below.1, below.2)
termination_by Json.membersWeight members.entries
decreasing_by exact weight_of_mem_innerNodes (List.mem_reverse.1 node.2)

/-- The leaves right below a node come first, each under the node's path and its own key, and then
the objects below it, from the last to the first. -/
theorem flattenBelow_eq (flat : Palette) (path : String) (members : Table String Json) :
    flattenBelow flat path members =
      (innerNodes members).reverse.foldl
        (fun flat node => flattenBelow flat (joinPath path (lowercase node.1)) node.2)
        ((ownLeaves members).foldl
          (fun flat own => flat.insert (joinPath path (lowercase own.1)) own.2) flat) := by
  rw [flattenBelow]
  exact List.foldl_attach (l := (innerNodes members).reverse)
    (f := fun flat node => flattenBelow flat (joinPath path (lowercase node.1)) node.2)

theorem leavesInOrder_eq (members : Table String Json) :
    leavesInOrder members =
      ((ownLeaves members).map fun own => ([own.1], own.2)) ++
        (innerNodes members).reverse.flatMap fun node =>
          (leavesInOrder node.2).map fun below => (node.1 :: below.1, below.2) := by
  rw [leavesInOrder, List.flatMap_subtype (g := fun node =>
    (leavesInOrder node.2).map fun below => (node.1 :: below.1, below.2)) (fun _ _ => rfl),
    List.unattach_attach]

/-- Induction on a tree, from the objects right below a node that are no leaves to the node. -/
@[elab_as_elim]
theorem below_induction {motive : Table String Json → Prop}
    (step : ∀ members, (∀ node ∈ innerNodes members, motive node.2) → motive members)
    (members : Table String Json) : motive members :=
  step members fun node _ => below_induction step node.2
termination_by Json.membersWeight members.entries
decreasing_by exact weight_of_mem_innerNodes ‹_›

/-! The rounds and the recursion. -/

theorem branches_eq (b : Branch) :
    b.branches = (innerNodes b.members).map fun node =>
      ⟨joinPath b.path (lowercase node.1), node.2⟩ := by
  rw [Branch.branches, Branch.children, innerNodes, Table.select, List.filter_filterMap,
    List.map_filterMap]
  apply List.filterMap_congr
  rintro ⟨key, value⟩ -
  dsimp only
  cases value.members? with
  | none => rfl
  | some child =>
      cases leaf : Leaf.ofMembers? child <;> simp [Branch.leaf?, Option.filter, leaf]

theorem enterLeaves_children (flat : Palette) (b : Branch) :
    enterLeaves flat b.children =
      (ownLeaves b.members).foldl
        (fun flat own => flat.insert (joinPath b.path (lowercase own.1)) own.2) flat := by
  rw [enterLeaves, Branch.children, ownLeaves, Table.select, List.foldl_filterMap,
    List.foldl_filterMap]
  congr 1
  funext flat entry
  obtain ⟨key, value⟩ := entry
  dsimp only [Leaf.ofJson?]
  cases value.members? with
  | none => rfl
  | some child =>
      cases leaf : Leaf.ofMembers? child <;> simp [Branch.leaf?, leaf]

/-- Visiting what is pending finishes one branch after the other. -/
theorem visit_eq_foldl (flat : Palette) (pending : List Branch) :
    visit flat pending =
      pending.foldl (fun flat b => flattenBelow flat b.path b.members) flat := by
  fun_induction visit flat pending with
  | case1 => rfl
  | case2 flat b rest ih =>
      rw [ih, List.foldl_append, List.foldl_cons, flattenBelow_eq, ← enterLeaves_children,
        branches_eq, ← List.map_reverse, List.foldl_map]

theorem flatten_eq_flattenBelow (tree : Table String Json) :
    flatten tree = flattenBelow .empty "" tree := by
  rw [flatten, visit_eq_foldl]
  rfl

/-- One round: the front branch enters its leaves and leaves its own branches pending. -/
def round : Palette × List Branch → Palette × List Branch
  | (flat, []) => (flat, [])
  | (flat, b :: rest) => (enterLeaves flat b.children, b.branches.reverse ++ rest)

/-- Every object of the pending branches takes at most one round. -/
theorem exists_rounds (flat : Palette) (pending : List Branch) :
    ∃ rounds ≤ pendingWeight pending,
      round^[rounds] (flat, pending) = (visit flat pending, []) := by
  fun_induction visit flat pending with
  | case1 flat => exact ⟨0, Nat.zero_le _, rfl⟩
  | case2 flat b rest ih =>
      obtain ⟨rounds, few, done⟩ := ih
      refine ⟨rounds + 1, ?_, done⟩
      exact Nat.lt_of_le_of_lt few (pendingWeight_branches b rest)

/-! The recursion and the order of the leaves. -/

/-- The order in which flattening comes by the leaves of a tree: at every node, its own leaves in
ascending order and then all that lies deeper, in descending order. -/
inductive EnteredBefore : List String → List String → Prop
  | own {a b : String} (h : a < b) : EnteredBefore [a] [b]
  | deeper {a b c : String} {rest : List String} : EnteredBefore [a] (b :: c :: rest)
  | branches {a b c d : String} {rest rest' : List String} (h : b < a) :
      EnteredBefore (a :: c :: rest) (b :: d :: rest')
  | under {a : String} {keys keys' : List String} (h : EnteredBefore keys keys') :
      EnteredBefore (a :: keys) (a :: keys')

theorem EnteredBefore.asymm {keys keys' : List String} (h : EnteredBefore keys keys') :
    ¬ EnteredBefore keys' keys := by
  induction h with
  | own first =>
      intro h
      cases h with
      | own second => exact Table.lt_asymm _ _ first second
      | under h => cases h
  | deeper =>
      intro h
      cases h with
      | under h => cases h
  | branches first =>
      intro h
      cases h with
      | branches second => exact Table.lt_asymm _ _ first second
      | under => exact KeyOrder.irrefl _ first
  | under before ih =>
      intro h
      cases h with
      | own => cases before
      | deeper => cases before
      | branches first => exact KeyOrder.irrefl _ first
      | under h => exact ih h

/-- Of two leaves of a tree one is entered before the other. -/
theorem EnteredBefore.connected {keys keys' : List String} (h : keys ≠ []) (h' : keys' ≠ []) :
    keys = keys' ∨ EnteredBefore keys keys' ∨ EnteredBefore keys' keys := by
  induction keys generalizing keys' with
  | nil => exact absurd rfl h
  | cons a rest ih =>
      obtain ⟨b, rest', rfl⟩ := List.exists_cons_of_ne_nil h'
      have heads := Table.lt_or_eq_or_lt a b
      cases rest with
      | nil =>
          cases rest' with
          | nil =>
              rcases heads with less | rfl | more
              · exact .inr (.inl (.own less))
              · exact .inl rfl
              · exact .inr (.inr (.own more))
          | cons => exact .inr (.inl .deeper)
      | cons c rest =>
          cases rest' with
          | nil => exact .inr (.inr .deeper)
          | cons d rest' =>
              rcases heads with less | rfl | more
              · exact .inr (.inr (.branches less))
              · rcases ih (List.cons_ne_nil c rest) (List.cons_ne_nil d rest') with same | h | h
                · exact .inl (congrArg _ same)
                · exact .inr (.inl (.under h))
                · exact .inr (.inr (.under h))
              · exact .inr (.inl (.branches more))

theorem flattenBelow_eq_foldl (flat : Palette) (path : String) (members : Table String Json) :
    flattenBelow flat path members =
      (leavesInOrder members).foldl
        (fun flat leaf => flat.insert (pathBelow path leaf.1) leaf.2) flat := by
  induction members using below_induction generalizing flat path with
  | step members ih =>
      rw [flattenBelow_eq, leavesInOrder_eq, List.foldl_append, List.foldl_map, List.foldl_flatMap]
      apply List.foldl_ext
      intro flat node hnode
      rw [ih node (List.mem_reverse.1 hnode), List.foldl_map]
      rfl

theorem mem_leavesInOrder {members : Table String Json} {keys : List String} {leaf : Leaf} :
    (keys, leaf) ∈ leavesInOrder members ↔ Reaches members keys leaf := by
  induction members using below_induction generalizing keys with
  | step members ih =>
      rw [leavesInOrder_eq, List.mem_append, List.mem_map, List.mem_flatMap]
      constructor
      · intro h
        cases h with
        | inl own =>
            obtain ⟨⟨key, leaf⟩, hown, ⟨⟩⟩ := own
            obtain ⟨child, here, isLeaf⟩ := mem_ownLeaves.1 hown
            exact .leaf here isLeaf
        | inr deeper =>
            obtain ⟨⟨key, child⟩, hnode, h⟩ := deeper
            obtain ⟨⟨keys, leaf⟩, below, ⟨⟩⟩ := List.mem_map.1 h
            have inner := List.mem_reverse.1 hnode
            obtain ⟨here, isBranch⟩ := mem_innerNodes.1 inner
            exact .branch here isBranch ((ih _ inner).1 below)
      · intro h
        cases h with
        | leaf here isLeaf => exact .inl ⟨_, mem_ownLeaves.2 ⟨_, here, isLeaf⟩, rfl⟩
        | branch here isBranch below =>
            have inner := mem_innerNodes.2 ⟨here, isBranch⟩
            exact .inr ⟨_, List.mem_reverse.2 inner, List.mem_map.2 ⟨_, (ih _ inner).2 below, rfl⟩⟩

theorem ordered_leavesInOrder (members : Table String Json) :
    (leavesInOrder members).Pairwise fun a b => EnteredBefore a.1 b.1 := by
  induction members using below_induction with
  | step members ih =>
      have nonempty (child : Table String Json) (below : List String × Leaf)
          (h : below ∈ leavesInOrder child) : ∃ key rest, below.1 = key :: rest :=
        List.exists_cons_of_ne_nil (mem_leavesInOrder.1 h).ne_nil
      -- The own leaves among each other, the leaves below one inner node, those below two of them,
      -- and last the own leaves in front of all others.
      rw [leavesInOrder_eq]
      refine List.pairwise_append.2 ⟨?_, List.pairwise_flatMap.2 ⟨?_, ?_⟩, ?_⟩
      · exact List.pairwise_map.2 ((Table.ascending_select _ members).imp .own)
      · intro node hnode
        exact List.pairwise_map.2 ((ih node (List.mem_reverse.1 hnode)).imp .under)
      · refine List.pairwise_reverse.2 ((Table.ascending_select _ members).imp ?_)
        intro a b before x hx y hy
        obtain ⟨below, hbelow, rfl⟩ := List.mem_map.1 hx
        obtain ⟨below', hbelow', rfl⟩ := List.mem_map.1 hy
        obtain ⟨key, rest, keys⟩ := nonempty _ below hbelow
        obtain ⟨key', rest', keys'⟩ := nonempty _ below' hbelow'
        simp only [keys, keys']
        exact .branches before
      · intro x hx y hy
        obtain ⟨own, -, rfl⟩ := List.mem_map.1 hx
        obtain ⟨node, -, hy⟩ := List.mem_flatMap.1 hy
        obtain ⟨below, hbelow, rfl⟩ := List.mem_map.1 hy
        obtain ⟨key, rest, keys⟩ := nonempty _ below hbelow
        simp only [keys]
        exact .deeper

/-- Every leaf is entered under its own path, in this order. -/
theorem flatten_eq_ofList (tree : Table String Json) :
    flatten tree =
      .ofList ((leavesInOrder tree).map fun leaf => (pathBelow "" leaf.1, leaf.2)) := by
  rw [flatten_eq_flattenBelow, flattenBelow_eq_foldl, Table.ofList, List.foldl_map]

/-- Of the leaves with one path the last is the one that is found. -/
theorem find?_flatten {tree : Table String Json} {path : String} {leaf : Leaf} :
    (flatten tree).find? path = some leaf ↔
      ∃ keys, Reaches tree keys leaf ∧ path = pathBelow "" keys ∧
        ∀ others other, Reaches tree others other → path = pathBelow "" others →
          others = keys ∨ EnteredBefore others keys := by
  have asymm (a b : List String × Leaf) (h : EnteredBefore a.1 b.1) : ¬ EnteredBefore b.1 a.1 :=
    h.asymm
  rw [flatten_eq_ofList, Table.find?_ofList_map_eq_some,
    exists_last_split_iff asymm (ordered_leavesInOrder tree)]
  simp only [Prod.exists, Prod.forall, mem_leavesInOrder, Prod.mk.injEq]
  constructor
  · intro h
    obtain ⟨keys, _, reaches, last, rfl, rfl⟩ := h
    refine ⟨keys, reaches, rfl, ?_⟩
    intro others other hother same
    have notAfter : ¬ EnteredBefore keys others := fun after =>
      last others other hother after same.symm
    have either := EnteredBefore.connected hother.ne_nil reaches.ne_nil
    exact either.imp_right fun h => h.resolve_right notAfter
  · intro h
    obtain ⟨keys, reaches, rfl, last⟩ := h
    refine ⟨keys, leaf, reaches, ?_, rfl, rfl⟩
    intro others other hother after same
    cases last others other hother same.symm with
    | inl itself => exact after.asymm (itself ▸ after)
    | inr before => exact after.asymm before

/-- The keys in lower case with dots between them. As no dot follows an empty path, empty keys at
the top leave no trace. -/
def dottedPath (keys : List String) : String :=
  ".".intercalate ((keys.dropWhile (· = "")).map lowercase)

theorem toList_intercalate_dot (first : String) (rest : List String) :
    (".".intercalate (first :: rest)).toList =
      first.toList ++ Text.dotted (rest.map String.toList) := by
  rw [String.toList_intercalate, List.map_cons]
  exact Text.intercalate_cons '.' _ _

theorem pathBelow_root (keys : List String) : pathBelow "" keys = dottedPath keys := by
  rw [dottedPath]
  induction keys with
  | nil => rfl
  | cons key rest ih =>
      by_cases empty : key = ""
      · rw [List.dropWhile_cons_of_pos (by simpa using empty), ← ih, empty]
        rfl
      · rw [List.dropWhile_cons_of_neg (by simpa using empty), ← String.toList_inj,
          pathBelow_top empty, List.map_cons, toList_intercalate_dot, List.map_map, lowercase,
          String.toList_ofList]
        simp [Function.comp_def, lowercase]

theorem dottedPath_concat (keys : List String) (key : String) :
    dottedPath (keys ++ [key]) = joinPath (dottedPath keys) (lowercase key) := by
  rw [← pathBelow_root, ← pathBelow_root, pathBelow, pathBelow, List.foldl_append]
  rfl

/-- Nothing but the leaves that are reached matters. -/
theorem flatten_eq_of_reaches_iff {tree tree' : Table String Json}
    (same : ∀ keys leaf, Reaches tree keys leaf ↔ Reaches tree' keys leaf) :
    flatten tree = flatten tree' := by
  apply Table.eq_of_find?_eq
  intro path
  ext leaf
  simp only [find?_flatten, same]

/-- The objects that are no leaves and have no leaf above them. -/
inductive Visitable (tree : Table String Json) : List String → Table String Json → Prop
  | root : Visitable tree [] tree
  | branch {members child : Table String Json} {key : String} {keys : List String}
      (above : Visitable tree keys members) (here : Json.objectAt? members key = some child)
      (isBranch : Leaf.ofMembers? child = none) : Visitable tree (keys ++ [key]) child

/-- The start of the rounds: nothing is entered and the tree is pending. -/
def start (tree : Table String Json) : Palette × List Branch := (.empty, [⟨"", tree⟩])

/-- What is pending is visitable, each under its path. -/
def PendingVisitable (tree : Table String Json) (pending : List Branch) : Prop :=
  ∀ b ∈ pending, ∃ keys, Visitable tree keys b.members ∧ b.path = dottedPath keys

/-- A round puts only objects in front that are no leaves, right below one that was visitable. -/
theorem PendingVisitable.round {tree : Table String Json} {state : Palette × List Branch}
    (h : PendingVisitable tree state.2) : PendingVisitable tree (round state).2 := by
  obtain ⟨flat, pending⟩ := state
  cases pending with
  | nil => exact h
  | cons front rest =>
      intro b hb
      cases List.mem_append.1 hb with
      | inr waiting => exact h b (List.mem_cons_of_mem front waiting)
      | inl below =>
          obtain ⟨keys, above, path⟩ := h front List.mem_cons_self
          obtain ⟨child, isBranch⟩ := List.mem_filter.1 (List.mem_reverse.1 below)
          obtain ⟨key, here, own⟩ := mem_children.1 child
          refine ⟨keys ++ [key], .branch above here (Option.isNone_iff_eq_none.1 isBranch), ?_⟩
          rw [own, path, dottedPath_concat]

/-- Nothing below a leaf is ever looked at. -/
theorem pendingVisitable_rounds (tree : Table String Json) (rounds : Nat) :
    PendingVisitable tree (round^[rounds] (start tree)).2 := by
  induction rounds with
  | zero =>
      intro b hb
      obtain rfl := List.mem_singleton.1 hb
      exact ⟨[], .root, rfl⟩
  | succ rounds ih =>
      rw [Function.iterate_succ_apply']
      exact ih.round

/-- The rounds end, after no more of them than there are objects in the tree, and leave what the
recursion over the tree leaves. Its keys are the paths of the leaves that are reached, and under
each stands the leaf with this path that comes last in the order of the recursion. Only objects that
are no leaves and have none above them are ever pending, and what is no reached leaf makes no
difference. -/
theorem flatten_eq_recursion (tree : Table String Json) :
    (∃ rounds ≤ pendingWeight (start tree).2, round^[rounds] (start tree) = (flatten tree, [])) ∧
    flatten tree = flattenBelow .empty "" tree ∧
    (∀ path, path ∈ (flatten tree).keys ↔
      ∃ keys leaf, Reaches tree keys leaf ∧ path = dottedPath keys) ∧
    (∀ path leaf, (flatten tree).find? path = some leaf ↔
      ∃ keys, Reaches tree keys leaf ∧ path = dottedPath keys ∧
        ∀ others other, Reaches tree others other → path = dottedPath others →
          others = keys ∨ EnteredBefore others keys) ∧
    (∀ rounds, PendingVisitable tree (round^[rounds] (start tree)).2) ∧
    ∀ tree', (∀ keys leaf, Reaches tree keys leaf ↔ Reaches tree' keys leaf) →
      flatten tree = flatten tree' := by
  refine ⟨exists_rounds .empty _, flatten_eq_flattenBelow tree, ?_, ?_,
    pendingVisitable_rounds tree, ?_⟩
  · intro path
    simp only [mem_keys_flatten, pathBelow_root]
  · intro path leaf
    simp only [find?_flatten, pathBelow_root]
  · intro tree' same
    exact flatten_eq_of_reaches_iff same

/-- Three leaves under one path, one of them at the top. The text beside them and what one of them
has below it make no difference, and the branch with the smallest key has the last word. -/
theorem flatten_eq_recursion_colliding :
    let leaf (value : String) := [("type", Json.string "color"), ("value", .string value)]
    let below := ("note", Json.object (leaf "#444444"))
    let crowded : Table String Json := .ofList [("A", .object [("b", .object (leaf "#111111"))]),
      ("a", .object [("B", .object (below :: leaf "#222222"))]), ("a.b", .object (leaf "#333333")),
      ("n", .string "7")]
    let bare : Table String Json := .ofList [("A", .object [("b", .object (leaf "#111111"))]),
      ("a", .object [("B", .object (leaf "#222222"))]), ("a.b", .object (leaf "#333333"))]
    flatten crowded = flatten bare ∧
      (flatten bare).find? "a.b" = some ⟨"color", "#111111"⟩ := by
  intro leaf below crowded bare
  obtain ⟨-, -, -, -, -, unaffected⟩ := flatten_eq_recursion crowded
  have leaves : leavesInOrder crowded = leavesInOrder bare := by decide +kernel
  refine ⟨unaffected bare ?_, by decide +kernel⟩
  intro keys leaf
  rw [← mem_leavesInOrder, leaves, mem_leavesInOrder]

end Palette

end DesignTokens
