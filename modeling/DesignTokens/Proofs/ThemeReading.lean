import DesignTokens.Theme.Extract
import DesignTokens.Proofs.AliasWalk
import DesignTokens.Proofs.Sequencing

/-!
Reading a theme, token by token. A theme is read exactly when every category is an object, every
token of it a leaf and every value of a leaf resolvable; it then has one entry for each token of
the section and no other.
-/
namespace DesignTokens.Theme

/-- What a section holds under a category and a token of it. -/
def nodeAt? (categories : Table String Json) (category token : String) : Option Json :=
  ((categories.find? category).bind Json.members?).bind fun tokens => tokens.find? token

def leafAt? (categories : Table String Json) (category token : String) : Option Leaf :=
  (nodeAt? categories category token).bind Leaf.ofJson?

theorem nodeAt?_eq_some {categories : Table String Json} {category token : String} {node : Json} :
    nodeAt? categories category token = some node ↔
      ∃ value tokens, categories.find? category = some value ∧ value.members? = some tokens ∧
        tokens.find? token = some node := by
  simp only [nodeAt?, Option.bind_eq_some_iff]
  constructor
  · intro h
    obtain ⟨tokens, ⟨value, found, members⟩, here⟩ := h
    exact ⟨value, tokens, found, members, here⟩
  · intro h
    obtain ⟨value, tokens, found, members, here⟩ := h
    exact ⟨tokens, ⟨value, found, members⟩, here⟩

variable {p : Palette} {root : String} {variant : Variant}

theorem literal?_eq_some {reference literal : String} :
    literal? p root reference = some literal ↔
      ∃ key, Reference.key? root reference = some key ∧ p.HoldsLiteral root key literal := by
  simp only [literal?, Palette.HoldsLiteral, Option.bind_eq_bind, Option.bind_eq_some_iff]
  constructor
  · intro h
    obtain ⟨key, refers, leaf, found, h⟩ := h
    split at h
    · cases h
    · rename_i notReference
      exact ⟨key, refers, leaf, found, by simpa using notReference, Option.some.inj h⟩
  · intro h
    obtain ⟨key, refers, leaf, found, notReference, rfl⟩ := h
    exact ⟨key, refers, leaf, found, by simp [notReference]⟩

theorem plainValue_eq_ok {token raw value : String} :
    plainValue p root token raw = .ok value ↔ literal? p root raw = some value := by
  unfold plainValue
  cases literal? p root raw <;> simp

theorem overriddenValue_eq_ok {token raw value : String} :
    overriddenValue p root token raw = .ok value ↔
      ∃ override literal colour, AlphaOverride.read raw = .ok override ∧
        literal? p root override.reference = some literal ∧
        Colour.ofHex literal (.underAlpha token) = .ok colour ∧
        value = (colour.withAlpha override.alpha).hex := by
  rw [overriddenValue, bind_eq_ok]
  constructor
  · intro h
    obtain ⟨override, read, h⟩ := h
    split at h
    · cases h
    · rename_i literal found
      obtain ⟨colour, parsed, h⟩ := bind_eq_ok.1 h
      exact ⟨override, literal, colour, read, found, parsed, (Except.ok.inj h).symm⟩
  · intro h
    obtain ⟨override, literal, colour, read, found, parsed, rfl⟩ := h
    refine ⟨override, read, ?_⟩
    rw [found]
    exact bind_eq_ok.2 ⟨colour, parsed, rfl⟩

theorem readToken_eq_ok {category : String} {member : String × Json} {entry : ThemeEntry} :
    readToken p variant root category member = .ok entry ↔
      ∃ leaf value, Leaf.ofJson? member.2 = some leaf ∧
        resolveValue p root member.1 leaf.value = .ok value ∧
        entry = ⟨category, member.1, { leaf with value := value }⟩ := by
  unfold readToken
  cases Leaf.ofJson? member.2 with
  | none => simp
  | some leaf =>
      simp only [bind_eq_ok, Option.some.injEq]
      constructor
      · intro h
        obtain ⟨value, resolved, h⟩ := h
        exact ⟨leaf, value, rfl, resolved, (Except.ok.inj h).symm⟩
      · intro h
        obtain ⟨leaf, value, rfl, resolved, rfl⟩ := h
        exact ⟨value, resolved, rfl⟩

theorem readCategory_eq_ok {member : String × Json} {group : List ThemeEntry} :
    readCategory p variant root member = .ok group ↔
      ∃ tokens, member.2.members? = some tokens ∧
        tokens.entries.mapM (readToken p variant root member.1) = .ok group := by
  unfold readCategory
  cases member.2.members? <;> simp

theorem readToken_succeeds {category token : String} {node : Json} :
    (∃ entry, readToken p variant root category (token, node) = .ok entry) ↔
      ∃ leaf value, Leaf.ofJson? node = some leaf ∧
        resolveValue p root token leaf.value = .ok value := by
  simp only [readToken_eq_ok]
  constructor
  · intro h
    obtain ⟨_, leaf, value, isLeaf, resolves, -⟩ := h
    exact ⟨leaf, value, isLeaf, resolves⟩
  · intro h
    obtain ⟨leaf, value, isLeaf, resolves⟩ := h
    exact ⟨_, leaf, value, isLeaf, resolves, rfl⟩

theorem readCategory_succeeds {member : String × Json} :
    (∃ group, readCategory p variant root member = .ok group) ↔
      ∃ tokens, member.2.members? = some tokens ∧
        ∀ token node, tokens.find? token = some node →
          ∃ leaf value, Leaf.ofJson? node = some leaf ∧
            resolveValue p root token leaf.value = .ok value := by
  simp only [readCategory_eq_ok, Table.find?_eq_some]
  constructor
  · intro h
    obtain ⟨group, tokens, members, h⟩ := h
    refine ⟨tokens, members, ?_⟩
    intro token node found
    exact readToken_succeeds.1 (mapM_succeeds.1 ⟨group, h⟩ (token, node) found)
  · intro h
    obtain ⟨tokens, members, h⟩ := h
    have readable (node : String × Json) (found : node ∈ tokens.entries) :
        ∃ entry, readToken p variant root member.1 node = .ok entry :=
      readToken_succeeds.2 (h node.1 node.2 found)
    obtain ⟨group, hgroup⟩ := mapM_succeeds.2 readable
    exact ⟨group, tokens, members, hgroup⟩

theorem read_succeeds {categories : Table String Json} :
    (∃ t, read categories p variant root = .ok t) ↔
      ∀ category value, categories.find? category = some value →
        ∃ tokens, value.members? = some tokens ∧
          ∀ token node, tokens.find? token = some node →
            ∃ leaf resolved, Leaf.ofJson? node = some leaf ∧
              resolveValue p root token leaf.value = .ok resolved := by
  have groups : (∃ t, read categories p variant root = .ok t) ↔
      ∃ groups, categories.entries.mapM (readCategory p variant root) = .ok groups := by
    simp only [read, bind_eq_ok]
    exact ⟨fun ⟨_, groups, h, _⟩ => ⟨groups, h⟩, fun ⟨groups, h⟩ => ⟨_, groups, h, rfl⟩⟩
  simp only [groups, mapM_succeeds, Prod.forall, readCategory_succeeds, Table.find?_eq_some]

theorem mem_entries_of_read {categories : Table String Json} {t : Theme}
    (h : read categories p variant root = .ok t) (entry : ThemeEntry) :
    entry ∈ t.entries ↔
      ∃ leaf value, leafAt? categories entry.category entry.token = some leaf ∧
        resolveValue p root entry.token leaf.value = .ok value ∧
        entry.leaf = { leaf with value := value } := by
  obtain ⟨groups, hgroups, ht⟩ := bind_eq_ok.1 h
  obtain rfl := Except.ok.inj ht
  simp only [List.mem_flatten, mem_of_mapM_eq_ok hgroups, Prod.exists, readCategory_eq_ok]
  constructor
  · intro h
    obtain ⟨group, ⟨category, value, found, tokens, members, hgroup⟩, hentry⟩ := h
    obtain ⟨member, hmember, read⟩ := (mem_of_mapM_eq_ok hgroup entry).1 hentry
    obtain ⟨leaf, resolved, isLeaf, resolves, rfl⟩ := readToken_eq_ok.1 read
    have node : nodeAt? categories category member.1 = some member.2 :=
      nodeAt?_eq_some.2 ⟨value, tokens, Table.find?_eq_some.2 found, members,
        Table.find?_eq_some.2 hmember⟩
    exact ⟨leaf, resolved, by rw [leafAt?, node]; exact isLeaf, resolves, rfl⟩
  · intro h
    obtain ⟨leaf, resolved, atLeaf, resolves, hleaf⟩ := h
    obtain ⟨node, hnode, isLeaf⟩ := Option.bind_eq_some_iff.1 atLeaf
    obtain ⟨value, tokens, found, members, here⟩ := nodeAt?_eq_some.1 hnode
    have read : readToken p variant root entry.category (entry.token, node) = .ok entry :=
      readToken_eq_ok.2 ⟨leaf, resolved, isLeaf, resolves, by rw [← hleaf]⟩
    have mem := Table.find?_eq_some.1 found
    obtain ⟨group, hgroup⟩ := mapM_succeeds.1 ⟨groups, hgroups⟩ _ mem
    obtain ⟨tokens', members', htokens⟩ := readCategory_eq_ok.1 hgroup
    obtain rfl : tokens = tokens' := Option.some.inj (members.symm.trans members')
    exact ⟨group, ⟨entry.category, value, mem, tokens, members, htokens⟩,
      (mem_of_mapM_eq_ok htokens entry).2 ⟨_, Table.find?_eq_some.1 here, read⟩⟩

end DesignTokens.Theme
