import DesignTokens.Compile
import DesignTokens.Proofs.DirectReading
import DesignTokens.Proofs.FlatPaths
import DesignTokens.Proofs.Rendering
import DesignTokens.Proofs.SizeReading
import DesignTokens.Proofs.ThemeJoin

/-!
Resolving the tokens of a document. The first main result says exactly which documents can be
resolved, in terms of the document alone: aliases are walks in the flattened tree, and no settled
palette is mentioned. The second says of a successful compilation that every colour in it is the
one read directly off the document.
-/
namespace DesignTokens

namespace Document
open Json (objectAt?)

theorem objectUnder_eq_ok {members object : Table String Json} {key container : String} :
    objectUnder members key container = .ok object ↔ objectAt? members key = some object := by
  unfold objectUnder objectAt?
  cases (members.find? key).bind Json.members? <;> simp

theorem object_eq_ok {d : Document} {key : String} {object : Table String Json} :
    d.object key = .ok object ↔ objectAt? d.root key = some object := objectUnder_eq_ok

theorem nestedObject_eq_ok {d : Document} {outer key : String} {object : Table String Json} :
    d.nestedObject outer key = .ok object ↔
      ∃ members, objectAt? d.root outer = some members ∧ objectAt? members key = some object := by
  simp only [nestedObject, bind_eq_ok, object_eq_ok, objectUnder_eq_ok]

end Document

namespace Theme

/-- Every category is an object, every token of it a leaf, and every value leads to a literal,
which spells a colour where an alpha override needs one. -/
def Resolvable (categories : Table String Json) (p : Palette) (root : String) : Prop :=
  ∀ category value, categories.find? category = some value →
    ∃ tokens, value.members? = some tokens ∧
      ∀ token node, tokens.find? token = some node →
        ∃ leaf text, Leaf.ofJson? node = some leaf ∧ FinalText p root leaf.value text

theorem read_settled_succeeds {categories : Table String Json} {p : Palette} {variant : Variant}
    {root : String} :
    (∃ t, read categories (p.mapValues (p.settle root)) variant root = .ok t) ↔
      Resolvable categories p root := by
  simp only [read_succeeds, resolveValue_settled, Resolvable]

theorem Resolvable.leafAt? {categories : Table String Json} {p : Palette} {root : String}
    (h : Resolvable categories p root) {category token : String}
    (present : (nodeAt? categories category token).isSome) :
    ∃ leaf text, leafAt? categories category token = some leaf ∧
      FinalText p root leaf.value text := by
  obtain ⟨node, hnode⟩ := Option.isSome_iff_exists.1 present
  obtain ⟨value, tokens, found, members, here⟩ := nodeAt?_eq_some.1 hnode
  obtain ⟨tokens', members', leaves⟩ := h category value found
  obtain rfl : tokens = tokens' := Option.some.inj (members.symm.trans members')
  obtain ⟨leaf, text, isLeaf, final⟩ := leaves token node here
  exact ⟨leaf, text, by rw [Theme.leafAt?, hnode]; exact isLeaf, final⟩

theorem isSome_nodeAt?_of_leafAt? {categories : Table String Json} {category token : String}
    {leaf : Leaf} (h : leafAt? categories category token = some leaf) :
    (nodeAt? categories category token).isSome := by
  obtain ⟨node, hnode, -⟩ := Option.bind_eq_some_iff.1 h
  rw [hnode]
  rfl

/-- Wherever both sections have a leaf, both values come down to text that spells a colour. -/
def Coloured (light dark : Table String Json) (p : Palette) (root : String) : Prop :=
  ∀ category token l d, leafAt? light category token = some l →
    leafAt? dark category token = some d → ∀ lightText darkText,
      FinalText p root l.value lightText → FinalText p root d.value darkText →
        (∃ c, Colour.ofHex lightText .literal = .ok c) ∧
          ∃ c, Colour.ofHex darkText .literal = .ok c

variable {lights darks : Table String Json} {p : Palette} {root : String} {light dark : Theme}

theorem merge_settled_succeeds
    (hl : read lights (p.mapValues (p.settle root)) .light root = .ok light)
    (hd : read darks (p.mapValues (p.settle root)) .dark root = .ok dark) :
    (∃ m, light.merge dark = .ok m) ↔ Coloured lights darks p root := by
  simp only [merge_succeeds, find?_byName hl, find?_byName hd, resolveValue_settled, colourOf,
    Coloured, Colour.ofHex_eq_ok]
  constructor
  · intro h category token l d atLight atDark lightText darkText finalLight finalDark
    exact h ⟨category, token⟩ lightText darkText ⟨l, atLight, finalLight⟩ ⟨d, atDark, finalDark⟩
  · intro h name lightText darkText inLight inDark
    obtain ⟨l, atLight, finalLight⟩ := inLight
    obtain ⟨d, atDark, finalDark⟩ := inDark
    exact h name.category name.token l d atLight atDark lightText darkText finalLight finalDark

theorem mem_merge_settled
    (hl : read lights (p.mapValues (p.settle root)) .light root = .ok light)
    (hd : read darks (p.mapValues (p.settle root)) .dark root = .ok dark) {m : Merged}
    (h : light.merge dark = .ok m) (entry : MergedEntry) :
    entry ∈ m.entries ↔
      ∃ l d, leafAt? lights entry.name.category entry.name.token = some l ∧
        leafAt? darks entry.name.category entry.name.token = some d ∧
        DirectColour p root l.value entry.light ∧ DirectColour p root d.value entry.dark := by
  simp only [mem_entries_of_merge h, find?_byName hl, find?_byName hd, resolveValue_settled,
    colourOf, directColour_iff, Colour.ofHex_eq_ok]
  constructor
  · intro h
    obtain ⟨lightText, darkText, ⟨l, atLight, finalLight⟩, ⟨d, atDark, finalDark⟩, spelledLight,
      spelledDark⟩ := h
    exact ⟨l, d, atLight, atDark, ⟨lightText, finalLight, spelledLight⟩,
      darkText, finalDark, spelledDark⟩
  · intro h
    obtain ⟨l, d, atLight, atDark, ⟨lightText, finalLight, spelledLight⟩,
      darkText, finalDark, spelledDark⟩ := h
    exact ⟨lightText, darkText, ⟨l, atLight, finalLight⟩, ⟨d, atDark, finalDark⟩, spelledLight,
      spelledDark⟩

end Theme

/-- Every member of a group of sizes is a leaf that holds a number. -/
def Size.Readable (members : Table String Json) (units : List String) : Prop :=
  ∀ name node, members.find? name = some node →
    ∃ leaf value, Leaf.ofJson? node = some leaf ∧ Dimension.read units leaf.value = .ok value

/-- The sections of a document that its tokens are read from. -/
structure Sections where
  colours : Table String Json
  light : Table String Json
  dark : Table String Json
  spacing : Table String Json
  radius : Table String Json

namespace Sections

structure FoundIn (s : Sections) (d : Document) (config : Config) : Prop where
  core : ∃ core, Json.objectAt? d.root config.core.top = some core ∧
    Json.objectAt? core config.core.colours = some s.colours ∧
    Json.objectAt? core config.core.spacing = some s.spacing ∧
    Json.objectAt? core config.core.radius = some s.radius
  light : Json.objectAt? d.root config.themes.light = some s.light
  dark : Json.objectAt? d.root config.themes.dark = some s.dark

def palette (s : Sections) : Palette := Palette.flatten s.colours

/-- What the sections have to satisfy beyond being there. Cycles count whether or not anything
refers to them, and a theme has to resolve in full, but only where both themes define a token do
their values have to spell colours. -/
structure Resolvable (s : Sections) (config : Config) : Prop where
  acyclic : ∀ key ∈ s.palette.keys, ¬ s.palette.NeverEnds config.core.colours key
  light : Theme.Resolvable s.light s.palette config.core.colours
  dark : Theme.Resolvable s.dark s.palette config.core.colours
  coloured : Theme.Coloured s.light s.dark s.palette config.core.colours
  spacing : Size.Readable s.spacing config.units
  radius : Size.Readable s.radius config.units

end Sections

namespace TokenSet

/-- The intermediate results on the way to a token set. -/
structure Derivation (d : Document) (config : Config) (tokens : TokenSet) where
  sections : Sections
  palette : Palette
  light : Theme
  dark : Theme
  found : sections.FoundIn d config
  settled : sections.palette.resolveAliases config.core.colours = .ok palette
  lightRead : Theme.read sections.light palette .light config.core.colours = .ok light
  darkRead : Theme.read sections.dark palette .dark config.core.colours = .ok dark
  merged : light.merge dark = .ok tokens.colours
  spacing : Size.readGroup sections.spacing config.core.spacing config.units = .ok tokens.spacing
  radius : Size.readGroup sections.radius config.core.radius config.units = .ok tokens.radius
  counted : tokens.coreCount = palette.size ∧ tokens.lightCount = light.entries.length ∧
    tokens.darkCount = dark.entries.length

theorem ofDocument_eq_ok {d : Document} {config : Config} {tokens : TokenSet} :
    ofDocument d config = .ok tokens ↔ Nonempty (Derivation d config tokens) := by
  simp only [ofDocument, bind_eq_ok, Document.object_eq_ok, Document.nestedObject_eq_ok]
  constructor
  · intro h
    obtain ⟨tree, ⟨core, atCore, atTree⟩, palette, settled, lightSection, atLight, light, lightRead,
      darkSection, atDark, dark, darkRead, merged, joined, spacingSection,
      ⟨core', atCore', atSpacing⟩, spacing, spacingRead, radiusSection,
      ⟨core'', atCore'', atRadius⟩, radius, radiusRead, h⟩ := h
    obtain rfl := Except.ok.inj h
    obtain rfl : core = core' := Option.some.inj (atCore.symm.trans atCore')
    obtain rfl : core = core'' := Option.some.inj (atCore.symm.trans atCore'')
    exact ⟨{
      sections := ⟨tree, lightSection, darkSection, spacingSection, radiusSection⟩
      palette := palette
      light := light
      dark := dark
      found := ⟨⟨core, atCore, atTree, atSpacing, atRadius⟩, atLight, atDark⟩
      settled := settled
      lightRead := lightRead
      darkRead := darkRead
      merged := joined
      spacing := spacingRead
      radius := radiusRead
      counted := ⟨rfl, rfl, rfl⟩ }⟩
  · intro h
    obtain ⟨sections, palette, light, dark, ⟨⟨core, atCore, atTree, atSpacing, atRadius⟩, atLight,
      atDark⟩, settled, lightRead, darkRead, merged, spacing, radius, hcore, hlight, hdark⟩ := h
    refine ⟨_, ⟨core, atCore, atTree⟩, palette, settled, _, atLight, light, lightRead, _, atDark,
      dark, darkRead, _, merged, _, ⟨core, atCore, atSpacing⟩, _, spacing, _,
      ⟨core, atCore, atRadius⟩, _, radius, ?_⟩
    rw [← hcore, ← hlight, ← hdark]
    rfl

theorem Derivation.settled_iff {d : Document} {config : Config} {tokens : TokenSet}
    (h : Derivation d config tokens) :
    (∀ key ∈ h.sections.palette.keys, ¬ h.sections.palette.NeverEnds config.core.colours key) ∧
      h.palette = h.sections.palette.mapValues (h.sections.palette.settle config.core.colours) :=
  Palette.resolveAliases_eq_ok.1 h.settled

theorem Derivation.resolvable {d : Document} {config : Config} {tokens : TokenSet}
    (h : Derivation d config tokens) : h.sections.Resolvable config := by
  obtain ⟨acyclic, settled⟩ := h.settled_iff
  have lightRead := h.lightRead
  have darkRead := h.darkRead
  rw [settled] at lightRead darkRead
  exact {
    acyclic := acyclic
    light := Theme.read_settled_succeeds.1 ⟨_, lightRead⟩
    dark := Theme.read_settled_succeeds.1 ⟨_, darkRead⟩
    coloured := (Theme.merge_settled_succeeds lightRead darkRead).1 ⟨_, h.merged⟩
    spacing := Size.readGroup_succeeds.1 ⟨_, h.spacing⟩
    radius := Size.readGroup_succeeds.1 ⟨_, h.radius⟩ }

/-- Resolution succeeds on exactly the documents whose sections are there and resolvable. -/
theorem ofDocument_succeeds_iff (d : Document) (config : Config) :
    (∃ tokens, ofDocument d config = .ok tokens) ↔
      ∃ s : Sections, s.FoundIn d config ∧ s.Resolvable config := by
  constructor
  · intro h
    obtain ⟨tokens, h⟩ := h
    obtain ⟨derivation⟩ := ofDocument_eq_ok.1 h
    exact ⟨derivation.sections, derivation.found, derivation.resolvable⟩
  · intro h
    obtain ⟨s, found, resolvable⟩ := h
    obtain ⟨light, lightRead⟩ := Theme.read_settled_succeeds.2 resolvable.light
    obtain ⟨dark, darkRead⟩ := Theme.read_settled_succeeds.2 resolvable.dark
    obtain ⟨merged, joined⟩ :=
      (Theme.merge_settled_succeeds lightRead darkRead).2 resolvable.coloured
    have spacingOk : ∃ sizes,
        Size.readGroup s.spacing config.core.spacing config.units = .ok sizes :=
      Size.readGroup_succeeds.2 resolvable.spacing
    have radiusOk : ∃ sizes,
        Size.readGroup s.radius config.core.radius config.units = .ok sizes :=
      Size.readGroup_succeeds.2 resolvable.radius
    obtain ⟨spacing, spacingRead⟩ := spacingOk
    obtain ⟨radius, radiusRead⟩ := radiusOk
    let settled := s.palette.mapValues (s.palette.settle config.core.colours)
    refine ⟨⟨settled.size, light.entries.length, dark.entries.length, merged, spacing, radius⟩,
      ofDocument_eq_ok.2 ⟨?_⟩⟩
    exact {
      sections := s
      palette := settled
      light := light
      dark := dark
      found := found
      settled := Palette.resolveAliases_eq_ok.2 ⟨resolvable.acyclic, rfl⟩
      lightRead := lightRead
      darkRead := darkRead
      merged := joined
      spacing := spacingRead
      radius := radiusRead
      counted := ⟨rfl, rfl, rfl⟩ }

end TokenSet

/-- Every colour of a compiled document is the one read directly off the document. -/
theorem compile_reads_directly {source : String} {config : Config} {compiled : Compiled}
    (h : compile source config = .ok compiled) :
    ∃ (document : Document) (s : Sections),
      Document.read source = .ok document ∧ s.FoundIn document config ∧
      (∀ name : TokenName,
        (∃ entry ∈ compiled.tokens.colours.entries, entry.name = name) ↔
          (Theme.nodeAt? s.light name.category name.token).isSome ∧
            (Theme.nodeAt? s.dark name.category name.token).isSome) ∧
      ∀ entry ∈ compiled.tokens.colours.entries, ∃ l d,
        Theme.leafAt? s.light entry.name.category entry.name.token = some l ∧
        Theme.leafAt? s.dark entry.name.category entry.name.token = some d ∧
        (∀ colour, Theme.DirectColour s.palette config.core.colours l.value colour ↔
          colour = entry.light) ∧
        ∀ colour, Theme.DirectColour s.palette config.core.colours d.value colour ↔
          colour = entry.dark := by
  obtain ⟨document, read, h⟩ := bind_eq_ok.1 h
  obtain ⟨tokens, resolved, h⟩ := bind_eq_ok.1 h
  obtain ⟨text, -, h⟩ := bind_eq_ok.1 h
  obtain rfl := Except.ok.inj h
  obtain ⟨derivation⟩ := TokenSet.ofDocument_eq_ok.1 resolved
  have resolvable := derivation.resolvable
  have lightRead := derivation.lightRead
  have darkRead := derivation.darkRead
  rw [derivation.settled_iff.2] at lightRead darkRead
  have entries := Theme.mem_merge_settled lightRead darkRead derivation.merged
  refine ⟨document, derivation.sections, read, derivation.found, ?_, ?_⟩
  · intro name
    constructor
    · intro h
      obtain ⟨entry, hentry, rfl⟩ := h
      obtain ⟨l, d, atLight, atDark, -⟩ := (entries entry).1 hentry
      exact ⟨Theme.isSome_nodeAt?_of_leafAt? atLight, Theme.isSome_nodeAt?_of_leafAt? atDark⟩
    · intro h
      obtain ⟨l, lightText, atLight, finalLight⟩ := resolvable.light.leafAt? h.1
      obtain ⟨d, darkText, atDark, finalDark⟩ := resolvable.dark.leafAt? h.2
      obtain ⟨⟨a, spelledLight⟩, b, spelledDark⟩ :=
        resolvable.coloured _ _ l d atLight atDark _ _ finalLight finalDark
      exact ⟨⟨name, a, b⟩, (entries _).2 ⟨l, d, atLight, atDark,
        Theme.directColour_iff.2 ⟨lightText, finalLight, spelledLight⟩,
        Theme.directColour_iff.2 ⟨darkText, finalDark, spelledDark⟩⟩, rfl⟩
  · intro entry hentry
    obtain ⟨l, d, atLight, atDark, isLight, isDark⟩ := (entries entry).1 hentry
    refine ⟨l, d, atLight, atDark, fun colour => ⟨?_, ?_⟩, fun colour => ⟨?_, ?_⟩⟩
    · exact fun other => Theme.directColour_unique other isLight
    · exact fun same => same ▸ isLight
    · exact fun other => Theme.directColour_unique other isDark
    · exact fun same => same ▸ isDark

/-- A document with one token, which refers to an alias in both themes, the second time with an
alpha of its own. -/
def aliasSource : String :=
  "\x7b\"M\":\x7b\"C\":\x7b\"a\":\x7b\"type\":\"\",\"value\":\"#010203\"\x7d," ++
  "\"b\":\x7b\"type\":\"\",\"value\":\"\x7ba\x7d\"\x7d\x7d,\"S\":\x7b\x7d,\"R\":\x7b\x7d\x7d," ++
  "\"L\":\x7b\"F\":\x7b\"x\":\x7b\"type\":\"\",\"value\":\"\x7bC.b\x7d\"\x7d\x7d\x7d," ++
  "\"D\":\x7b\"F\":\x7b\"x\":\x7b\"type\":\"\",\"value\":\"rgba(\x7bb\x7d,.5)\"\x7d\x7d\x7d\x7d"

def aliasConfig : Config where
  core := ⟨"M", "C", "S", "R"⟩
  themes := ⟨"L", "D"⟩

theorem compile_reads_directly_of_alias :
    ∃ (compiled : Compiled) (s : Sections) (l d : Leaf),
      compile aliasSource aliasConfig = .ok compiled ∧
      compiled.tokens.colours.entries = [⟨⟨"F", "x"⟩, ⟨1, 2, 3, 255⟩, ⟨1, 2, 3, 128⟩⟩] ∧
      Theme.leafAt? s.light "F" "x" = some l ∧ Theme.leafAt? s.dark "F" "x" = some d ∧
      Theme.DirectColour s.palette "C" l.value ⟨1, 2, 3, 255⟩ ∧
      Theme.DirectColour s.palette "C" d.value ⟨1, 2, 3, 128⟩ := by
  have evaluated :
      (compile aliasSource aliasConfig).toOption.map (fun c => c.tokens.colours.entries) =
        some [⟨⟨"F", "x"⟩, ⟨1, 2, 3, 255⟩, ⟨1, 2, 3, 128⟩⟩] := by
    -- the text is never asked for here, so it is not evaluated
    simp only [compile, Swift.emit_eq_map_render]
    decide +kernel
  obtain ⟨compiled, compiles, entries⟩ := Option.map_eq_some_iff.1 evaluated
  have compiles := toOption_eq_some.1 compiles
  obtain ⟨-, s, -, -, -, reads⟩ := compile_reads_directly compiles
  obtain ⟨l, d, atLight, atDark, light, dark⟩ := reads _ (by rw [entries]; exact List.mem_cons_self)
  exact ⟨compiled, s, l, d, compiles, entries, atLight, atDark, (light _).2 rfl, (dark _).2 rfl⟩

end DesignTokens
