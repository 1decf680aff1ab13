import DesignTokens.Proofs.DeclaredTokens
import DesignTokens.Proofs.Resolution
import DesignTokens.Proofs.ThemeNames

/-!
Counting tokens from the document to the text. What resolution counts are the keys and leaves of
the sections, every constant comes from one merged entry or one size, and the text has one line for
each constant, which can be recognized by the words it begins with.
-/
namespace DesignTokens

namespace Swift

namespace Declarations

theorem length_colours_arrange (config : Config) (colours : List MergedEntry)
    (spacing radius : List Size) :
    ((arrange config colours spacing radius).groups.flatMap ColourGroup.constants).length =
      colours.length := by
  have entries := (records_arrange config colours spacing radius).entries
  rw [← entries.length_eq, List.length_flatMap, List.length_flatMap]
  simp only [List.length_map]

/-- Every entry and every size is declared once. -/
theorem count_of_build {config : Config} {colours : List MergedEntry} {spacing radius : List Size}
    {d : Declarations} (h : build config colours spacing radius = .ok d) :
    d.count = colours.length + spacing.length + radius.length := by
  obtain ⟨rfl, -⟩ := build_eq_ok.1 h
  rw [count, length_colours_arrange]
  simp [arrange, sizeGroup, (Size.sort_perm _).length_eq]

end Declarations

def constantWords : List Char := "public static let ".toList

/-- The line begins, behind its indentation, with the words that declare a constant. -/
def isConstantLine (line : List Char) : Bool := constantWords.isPrefixOf (Text.trimStart line)

def constantLines (text : String) : Nat :=
  (Text.pieces (· = '\n') text.toList).countP isConstantLine

section Printer

/-- The number of lines of a block that declare a constant. -/
def constantsIn (block : List String) : Nat := block.countP fun line => isConstantLine line.toList

theorem constantsIn_append (a b : List String) :
    constantsIn (a ++ b) = constantsIn a + constantsIn b := List.countP_append

theorem constantsIn_cons (line : String) (rest : List String) :
    constantsIn (line :: rest) = constantsIn [line] + constantsIn rest :=
  constantsIn_append [line] rest

/-- Nothing between the blocks declares a constant. -/
theorem constantsIn_spaced {α β : Type} {block : α → List String} {parts : α → List β}
    (each : ∀ a, constantsIn (block a) = (parts a).length) (as : List α) :
    constantsIn (spaced (as.map block)) = (as.flatMap parts).length := by
  have blank : constantsIn [""] = 0 := by decide
  have following (rest : List α) :
      constantsIn ((rest.map block).flatMap fun b => "" :: b) = (rest.flatMap parts).length := by
    induction rest with
    | nil => rfl
    | cons b rest ih =>
        rw [List.map_cons, List.flatMap_cons, List.flatMap_cons, constantsIn_append,
          constantsIn_cons, blank, each, ih, List.length_append, Nat.zero_add]
  cases as with
  | nil => rfl
  | cons a rest =>
      rw [List.map_cons, spaced_cons, constantsIn_append, each, following, List.flatMap_cons,
        List.length_append]

/-- Blocks that declare one constant each. -/
theorem constantsIn_spaced_one {α : Type} {block : α → List String}
    (each : ∀ a, constantsIn (block a) = 1) (as : List α) :
    constantsIn (spaced (as.map block)) = as.length := by
  have one : ∀ a, constantsIn (block a) = [a].length := each
  rw [constantsIn_spaced one, List.flatMap_singleton']

/-- How a line begins settles what it is, unless there are only some of the words. -/
theorem constantsIn_begins {before : String}
    (settled : Text.trimStart before.toList <+: constantWords →
      Text.trimStart before.toList = constantWords) (after : String) :
    constantsIn [before ++ after] = constantsIn [before] := by
  have trimmed : Text.trimStart (before ++ after).toList =
      Text.trimStart before.toList ++ after.toList := by
    have begun : Text.trimStart before.toList ≠ [] := by
      intro none
      rw [none] at settled
      exact absurd (settled List.nil_prefix) (by decide)
    rw [Text.trimStart] at begun ⊢
    rw [String.toList_append, List.dropWhile_append]
    simp [begun, Text.trimStart]
  have same : isConstantLine (before ++ after).toList = isConstantLine before.toList := by
    rw [isConstantLine, isConstantLine, trimmed, Bool.eq_iff_iff, List.isPrefixOf_iff_prefix,
      List.isPrefixOf_iff_prefix]
    constructor
    · intro h
      cases List.prefix_or_prefix_of_prefix h (List.prefix_append _ after.toList) with
      | inl within => exact within
      | inr only => exact settled only ▸ List.prefix_rfl
    · exact fun h => h.trans (List.prefix_append _ _)
  rw [constantsIn, constantsIn, List.countP_singleton, List.countP_singleton, same]

theorem constantsIn_colourLines (c : ColourConstant) : constantsIn (colourLines c) = 1 := by
  have declares : constantsIn ["        public static let "] = 1 := by decide
  have condition : constantsIn
      ["            return traitCollection.userInterfaceStyle == .light"] = 0 := by decide
  have light : constantsIn ["                ? "] = 0 := by decide
  have dark : constantsIn ["                : "] = 0 := by decide
  have closing : constantsIn ["        \x7d)"] = 0 := by decide
  rw [colourLines, constantsIn_cons, String.append_assoc, constantsIn_begins (by decide), declares,
    constantsIn_cons, condition, constantsIn_cons, constantsIn_begins (by decide), light,
    constantsIn_cons, constantsIn_begins (by decide), dark, closing]

theorem constantsIn_sizeLines (c : SizeConstant) : constantsIn (sizeLines c) = 1 := by
  have text : constantsIn ["    /// "] = 0 := by decide
  have declares : constantsIn ["    public static let "] = 1 := by decide
  simp only [sizeLines, String.append_assoc]
  rw [constantsIn_cons, constantsIn_begins (by decide), text, constantsIn_begins (by decide),
    declares]

theorem constantsIn_enum (name : String) :
    constantsIn ["public enum " ++ name ++ " \x7b"] = 0 := by
  rw [String.append_assoc, constantsIn_begins (by decide)]
  decide

theorem constantsIn_innerEnum (name : String) :
    constantsIn ["    public enum " ++ name ++ " \x7b"] = 0 := by
  rw [String.append_assoc, constantsIn_begins (by decide)]
  decide

theorem constantsIn_groupLines (g : ColourGroup) :
    constantsIn (groupLines g) = g.constants.length := by
  have closing : constantsIn ["    \x7d"] = 0 := by decide
  rw [groupLines, List.cons_append, constantsIn_cons, constantsIn_append, closing,
    constantsIn_innerEnum, constantsIn_spaced_one constantsIn_colourLines]
  simp

theorem constantsIn_sizeGroupLines (g : SizeGroup) :
    constantsIn (sizeGroupLines g) = g.constants.length := by
  have closing : constantsIn ["\x7d"] = 0 := by decide
  rw [sizeGroupLines, List.cons_append, constantsIn_cons, constantsIn_append, closing,
    constantsIn_enum, constantsIn_spaced_one constantsIn_sizeLines]
  simp

/-- One line declares each constant. -/
theorem constantsIn_lines (d : Declarations) : constantsIn (lines d) = d.count := by
  have opening : constantsIn header = 0 := by decide +kernel
  have closing : constantsIn ["\x7d", ""] = 0 := by decide
  have blank : constantsIn [""] = 0 := by decide
  have groups : constantsIn (spaced (d.groups.map groupLines)) =
      (d.groups.flatMap fun g => g.constants).length :=
    constantsIn_spaced constantsIn_groupLines d.groups
  have blocks : lines d = header ++ (["public enum " ++ d.colours ++ " \x7b"] ++
      (spaced (d.groups.map groupLines) ++ (["\x7d", ""] ++ (sizeGroupLines d.spacing ++
        ([""] ++ sizeGroupLines d.radius))))) := by
    simp [lines]
  rw [blocks]
  simp only [constantsIn_append, opening, constantsIn_enum, groups, closing, blank,
    constantsIn_sizeGroupLines, Declarations.count]
  omega

end Printer

theorem constantLines_render {d : Declarations} (valid : d.validate = .ok ()) :
    constantLines (render d) = d.count := by
  have nothing : List.countP isConstantLine [[]] = 0 := by decide
  rw [constantLines, pieces_render valid, List.countP_append, List.countP_map, nothing,
    ← constantsIn_lines, constantsIn]
  simp only [Function.comp_def, Nat.add_zero]

end Swift

namespace TokenSet

/-- What the counts of a token set are the counts of. -/
structure AccountsFor (tokens : TokenSet) (s : Sections) : Prop where
  core : tokens.coreCount = s.palette.keys.length
  light : tokens.lightCount = (Theme.leafNames s.light).length
  dark : tokens.darkCount = (Theme.leafNames s.dark).length
  lightSplit : tokens.lightCount = tokens.colours.entries.length + tokens.colours.lightOnly.length
  darkSplit : tokens.darkCount = tokens.colours.entries.length + tokens.colours.darkOnly.length
  names : tokens.colours.Splits (Theme.leafNames s.light) (Theme.leafNames s.dark)
  spacing : (tokens.spacing.map Size.name).Perm s.spacing.keys
  radius : (tokens.radius.map Size.name).Perm s.radius.keys

theorem Derivation.accountsFor {d : Document} {config : Config} {tokens : TokenSet}
    (h : Derivation d config tokens) : tokens.AccountsFor h.sections := by
  obtain ⟨core, light, dark⟩ := h.counted
  have palette : h.palette.size = h.sections.palette.keys.length := by
    rw [h.settled_iff.2]
    simp [Table.size, Table.mapValues, Table.keys]
  have lightNames := Theme.names_of_read h.lightRead
  have darkNames := Theme.names_of_read h.darkRead
  have names := Theme.splits_of_merge (Theme.keys_byName h.lightRead)
    (Theme.keys_byName h.darkRead) h.merged
  have lightCount : tokens.lightCount = (Theme.leafNames h.sections.light).length := by
    rw [light, ← lightNames, List.length_map]
  have darkCount : tokens.darkCount = (Theme.leafNames h.sections.dark).length := by
    rw [dark, ← darkNames, List.length_map]
  exact {
    core := core.trans palette
    light := lightCount
    dark := darkCount
    lightSplit := by
      rw [lightCount, ← names.light.length_eq, List.length_append, Merged.names, List.length_map]
    darkSplit := by
      rw [darkCount, ← names.dark.length_eq, List.length_append, Merged.names, List.length_map]
    names := names
    spacing := Size.names_of_readGroup h.spacing
    radius := Size.names_of_readGroup h.radius }

end TokenSet

/-- Every token of a compiled document is accounted for, from its section to its line of text. -/
theorem compile_accounts_for_tokens {source : String} {config : Config} {compiled : Compiled}
    (h : compile source config = .ok compiled) :
    ∃ (document : Document) (s : Sections) (d : Swift.Declarations),
      Document.read source = .ok document ∧ s.FoundIn document config ∧
      compiled.tokens.AccountsFor s ∧
      Swift.Declarations.build config compiled.tokens.colours.entries compiled.tokens.spacing
        compiled.tokens.radius = .ok d ∧
      compiled.text = Swift.render d ∧
      compiled.tokens.constantCount = d.count ∧
      compiled.tokens.constantCount = Swift.constantLines compiled.text := by
  obtain ⟨document, read, h⟩ := bind_eq_ok.1 h
  obtain ⟨tokens, resolved, h⟩ := bind_eq_ok.1 h
  obtain ⟨text, emitted, h⟩ := bind_eq_ok.1 h
  obtain rfl := Except.ok.inj h
  obtain ⟨derivation⟩ := TokenSet.ofDocument_eq_ok.1 resolved
  rw [Swift.emit_eq_map_render] at emitted
  obtain ⟨d, built, rendered⟩ := map_eq_ok.1 emitted
  have valid := (Swift.Declarations.build_eq_ok.1 built).2
  have declared : tokens.constantCount = d.count := (Swift.Declarations.count_of_build built).symm
  have written : tokens.constantCount = Swift.constantLines text := by
    rw [declared, ← rendered, Swift.constantLines_render valid]
  exact ⟨document, derivation.sections, d, read, derivation.found, derivation.accountsFor, built,
    rendered.symm, declared, written⟩

/-- A document with two tokens, of which only the first is dark as well as light. -/
def oneSidedSource : String :=
  "\x7b\"M\":\x7b\"C\":\x7b\"a\":\x7b\"type\":\"\",\"value\":\"#010203\"\x7d\x7d," ++
  "\"S\":\x7b\x7d,\"R\":\x7b\x7d\x7d," ++
  "\"L\":\x7b\"F\":\x7b\"x\":\x7b\"type\":\"\",\"value\":\"\x7ba\x7d\"\x7d," ++
  "\"y\":\x7b\"type\":\"\",\"value\":\"\x7ba\x7d\"\x7d\x7d\x7d," ++
  "\"D\":\x7b\"F\":\x7b\"x\":\x7b\"type\":\"\",\"value\":\"\x7ba\x7d\"\x7d\x7d\x7d\x7d"

theorem compile_accounts_for_tokens_one_sided :
    ∃ compiled, compile oneSidedSource aliasConfig = .ok compiled ∧
      compiled.tokens.colours.lightOnly = [⟨"F", "y"⟩] ∧
      compiled.tokens.lightCount = compiled.tokens.colours.entries.length + 1 ∧
      Swift.constantLines compiled.text = 1 := by
  have evaluated :
      (compile oneSidedSource aliasConfig).toOption.map
          (fun c => (c.tokens.colours.lightOnly, c.tokens.constantCount)) =
        some ([⟨"F", "y"⟩], 1) := by
    simp only [compile, Swift.emit_eq_map_render]
    decide +kernel
  obtain ⟨compiled, compiles, counts⟩ := Option.map_eq_some_iff.1 evaluated
  obtain ⟨lightOnly, constants⟩ := Prod.mk.inj counts
  have compiles := toOption_eq_some.1 compiles
  obtain ⟨-, s, -, -, -, accounts, -, -, -, written⟩ := compile_accounts_for_tokens compiles
  refine ⟨compiled, compiles, lightOnly, ?_, written.symm.trans constants⟩
  rw [accounts.lightSplit, lightOnly, List.length_singleton]

end DesignTokens
