import DesignTokens.Proofs.ThemeJoin

/-!
The names of a theme, counted. Reading a section gives one entry for each of its leaves, in
ascending order of their names, and joining two themes puts every name in exactly one of three
lists: those that both have, and those that only the one or only the other has.
-/
namespace DesignTokens

def ThemeEntry.name (e : ThemeEntry) : TokenName := ⟨e.category, e.token⟩

namespace Merged

def names (m : Merged) : List TokenName := m.entries.map MergedEntry.name

/-- The names of the two sides of a join are shared out among three lists, none of them twice. -/
structure Splits (m : Merged) (lights darks : List TokenName) : Prop where
  light : (m.names ++ m.lightOnly).Perm lights
  dark : (m.names ++ m.darkOnly).Perm darks
  distinct : (m.names ++ m.lightOnly ++ m.darkOnly).Nodup

end Merged

namespace Theme

/-- The names of the leaves under a category. -/
def namesUnder (category : String) (node : Json) : List TokenName :=
  match node.members? with
  | none => []
  | some tokens =>
    (tokens.entries.filter fun member => (Leaf.ofJson? member.2).isSome).map fun member =>
      ⟨category, member.1⟩

/-- The names of the leaves of a section, in order. -/
def leafNames (categories : Table String Json) : List TokenName :=
  categories.entries.flatMap fun member => namesUnder member.1 member.2

section Leaves
variable {categories : Table String Json}

theorem mem_namesUnder {category : String} {node : Json} {name : TokenName} :
    name ∈ namesUnder category node ↔
      name.category = category ∧ ∃ tokens below, node.members? = some tokens ∧
        tokens.find? name.token = some below ∧ (Leaf.ofJson? below).isSome := by
  unfold namesUnder
  cases node.members? with
  | none => simp
  | some tokens =>
      simp only [List.mem_map, List.mem_filter, Prod.exists, ← Table.find?_eq_some]
      constructor
      · intro h
        obtain ⟨token, below, ⟨found, isLeaf⟩, rfl⟩ := h
        exact ⟨rfl, tokens, below, rfl, found, isLeaf⟩
      · intro h
        obtain ⟨rfl, _, below, ⟨⟩, found, isLeaf⟩ := h
        exact ⟨name.token, below, ⟨found, isLeaf⟩, rfl⟩

theorem mem_leafNames {name : TokenName} :
    name ∈ leafNames categories ↔ (leafAt? categories name.category name.token).isSome := by
  simp only [leafNames, List.mem_flatMap, Prod.exists, ← Table.find?_eq_some, mem_namesUnder,
    leafAt?, Option.isSome_bind, Option.any_eq_true, nodeAt?_eq_some]
  constructor
  · intro h
    obtain ⟨_, node, found, rfl, tokens, below, members, here, isLeaf⟩ := h
    exact ⟨below, ⟨node, tokens, found, members, here⟩, isLeaf⟩
  · intro h
    obtain ⟨below, ⟨node, tokens, found, members, here⟩, isLeaf⟩ := h
    exact ⟨_, node, found, rfl, tokens, below, members, here, isLeaf⟩

theorem ascending_namesUnder (category : String) (node : Json) :
    (namesUnder category node).Pairwise (· < ·) := by
  unfold namesUnder
  cases node.members? with
  | none => exact .nil
  | some tokens =>
      refine List.pairwise_map.2 ((tokens.ascending.filter _).imp ?_)
      intro a b before
      exact .inr ⟨rfl, before⟩

theorem ascending_leafNames (categories : Table String Json) :
    (leafNames categories).Pairwise (· < ·) := by
  refine List.pairwise_flatMap.2 ⟨fun member _ => ascending_namesUnder member.1 member.2,
    categories.ascending.imp ?_⟩
  intro a b before name hname other hother
  left
  rwa [(mem_namesUnder.1 hname).1, (mem_namesUnder.1 hother).1]

end Leaves

section Reading
variable {categories : Table String Json} {p : Palette} {variant : Variant} {root : String}

theorem names_of_readCategory {member : String × Json} {group : List ThemeEntry}
    (h : readCategory p variant root member = .ok group) :
    group.map ThemeEntry.name = namesUnder member.1 member.2 := by
  obtain ⟨tokens, members, read⟩ := readCategory_eq_ok.1 h
  have leaves : ∀ token ∈ tokens.entries, (Leaf.ofJson? token.2).isSome := by
    intro token htoken
    obtain ⟨entry, hentry⟩ := mapM_succeeds.1 ⟨group, read⟩ token htoken
    obtain ⟨leaf, value, isLeaf, -⟩ := readToken_eq_ok.1 hentry
    exact Option.isSome_iff_exists.2 ⟨leaf, isLeaf⟩
  have named : group.map ThemeEntry.name =
      tokens.entries.map fun token => ⟨member.1, token.1⟩ := by
    refine map_of_mapM_eq_ok ?_ read
    intro token entry hentry
    obtain ⟨leaf, value, -, -, rfl⟩ := readToken_eq_ok.1 hentry
    rfl
  rw [named, namesUnder, members]
  simp only
  rw [List.filter_eq_self.2 leaves]

/-- A theme has one entry for each leaf of its section. -/
theorem names_of_read {t : Theme} (h : read categories p variant root = .ok t) :
    t.entries.map ThemeEntry.name = leafNames categories := by
  obtain ⟨groups, hgroups, ht⟩ := bind_eq_ok.1 h
  obtain rfl := Except.ok.inj ht
  rw [List.map_flatten, map_of_mapM_eq_ok (fun _ _ => names_of_readCategory) hgroups]
  rfl

theorem keys_byName {t : Theme} (h : read categories p variant root = .ok t) :
    t.byName.keys = leafNames categories := by
  have names : (t.entries.map fun e => (e.name, e.leaf.value)).map Prod.fst =
      leafNames categories := by
    rw [List.map_map, ← names_of_read h]
    rfl
  have ascending := ascending_leafNames categories
  rw [← names] at ascending
  exact (Table.keys_ofList_of_ascending ascending).trans names

end Reading

section Join

theorem names_of_commonValues (light dark : Table TokenName String) :
    (commonValues light dark).map Prod.fst = light.keys.filter fun name => name ∈ dark.keys := by
  have keys : light.keys = light.entries.map Prod.fst := rfl
  rw [commonValues, keys]
  induction light.entries with
  | nil => rfl
  | cons e rest ih =>
      rw [List.filterMap_cons, List.map_cons, List.filter_cons]
      cases found : dark.find? e.1 with
      | none =>
          have missing : e.1 ∉ dark.keys := by
            rw [← Table.isNone_find?_iff, found]
            rfl
          simpa [missing, found] using ih
      | some other =>
          have present : e.1 ∈ dark.keys := Table.mem_keys.2 ⟨other, found⟩
          simpa [present, found] using ih

theorem namesOnlyIn_eq (a b : Table TokenName String) :
    namesOnlyIn a b = a.keys.filter fun name => name ∉ b.keys := by
  refine List.filter_congr ?_
  intro name _
  rw [Bool.eq_iff_iff, Table.isNone_find?_iff, decide_eq_true_eq]

variable {light dark : Theme} {m : Merged}

theorem names_of_merge (h : light.merge dark = .ok m) :
    m.names = light.byName.keys.filter fun name => name ∈ dark.byName.keys := by
  rw [← names_of_commonValues]
  refine map_of_mapM_eq_ok ?_ (merge_eq_ok.1 h).1
  rintro ⟨name, l, d⟩ entry hentry
  exact (mergeEntry_eq_ok.1 hentry).1

theorem splits_of_merge {lights darks : List TokenName} (hl : light.byName.keys = lights)
    (hd : dark.byName.keys = darks) (h : light.merge dark = .ok m) : m.Splits lights darks := by
  have ascendingLights : lights.Pairwise (· < ·) := hl ▸ light.byName.ascending_keys
  have ascendingDarks : darks.Pairwise (· < ·) := hd ▸ dark.byName.ascending_keys
  have common : m.names = lights.filter (· ∈ darks) := by rw [names_of_merge h, hl, hd]
  have common' : m.names = darks.filter (· ∈ lights) := by
    rw [common]
    refine Table.eq_of_ascending (ascendingLights.filter _) (ascendingDarks.filter _) ?_
    intro name
    simp only [List.mem_filter, decide_eq_true_eq, and_comm]
  obtain ⟨-, lightOnly, darkOnly⟩ := merge_eq_ok.1 h
  rw [namesOnlyIn_eq, hl, hd] at lightOnly darkOnly
  have light : (m.names ++ m.lightOnly).Perm lights := by
    rw [common, lightOnly]
    simpa only [decide_not] using List.filter_append_perm (· ∈ darks) lights
  have dark : (m.names ++ m.darkOnly).Perm darks := by
    rw [common', darkOnly]
    simpa only [decide_not] using List.filter_append_perm (· ∈ lights) darks
  refine ⟨light, dark, List.nodup_append'.2 ⟨?_, ?_, ?_⟩⟩
  · exact light.nodup_iff.2 (Table.nodup_of_ascending ascendingLights)
  · rw [darkOnly]
    exact (Table.nodup_of_ascending ascendingDarks).filter _
  · intro name inLight inDarkOnly
    rw [darkOnly, List.mem_filter, decide_eq_true_eq] at inDarkOnly
    exact inDarkOnly.2 (light.mem_iff.1 inLight)

end Join

end Theme

end DesignTokens
