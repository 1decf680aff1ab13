import DesignTokens.Proofs.HexText
import DesignTokens.Proofs.ThemeNames

/-!
Reading a semantic section against any palette, settled or not. What a raw value comes down to is
said without reading it: it names a path where the palette holds a literal, and under an alpha
override that literal spells a colour. A section is read in full or not at all; what stops the
reading is the first thing wrong in the order of the categories and of the tokens in each of them.
-/
namespace DesignTokens

/-- The palette as it stands holds a literal under a reference. -/
def Palette.Holds (p : Palette) (root reference literal : String) : Prop :=
  ∃ key, Reference.key? root reference = some key ∧ p.HoldsLiteral root key literal

namespace Theme

/-- The colour that a raw value overrides the alpha channel of. -/
def Overrides (p : Palette) (root raw : String) (core : Colour) (alpha : Binary64) : Prop :=
  ∃ override literal, AlphaOverride.read raw = .ok override ∧ override.alpha = alpha ∧
    p.Holds root override.reference literal ∧ Colour.ofHex literal .literal = .ok core

/-- What a raw value comes down to. -/
inductive ReadsAs (p : Palette) (root raw : String) : String → Prop
  | plain {literal : String} (form : AlphaOverride.isForm raw = false)
      (holds : p.Holds root raw literal) : ReadsAs p root raw literal
  | overridden {core : Colour} {alpha : Binary64} (form : AlphaOverride.isForm raw = true)
      (overrides : Overrides p root raw core alpha) :
      ReadsAs p root raw (core.withAlpha alpha).hex

/-- Why a raw value comes down to nothing. -/
inductive ValueFault (p : Palette) (root token raw : String) : Failure → Prop
  | plain (form : AlphaOverride.isForm raw = false)
      (nowhere : ∀ literal, ¬ p.Holds root raw literal) :
      ValueFault p root token raw (.unresolved token raw)
  | malformed {failure : Failure} (form : AlphaOverride.isForm raw = true)
      (read : AlphaOverride.read raw = .error failure) : ValueFault p root token raw failure
  | overridden {override : AlphaOverride} (form : AlphaOverride.isForm raw = true)
      (read : AlphaOverride.read raw = .ok override)
      (nowhere : ∀ literal, ¬ p.Holds root override.reference literal) :
      ValueFault p root token raw (.unresolved token raw)
  | misspelled {override : AlphaOverride} {literal : String} {fault : HexFault}
      (form : AlphaOverride.isForm raw = true) (read : AlphaOverride.read raw = .ok override)
      (holds : p.Holds root override.reference literal)
      (wrong : Colour.ofHex literal .literal = .error (.badHex literal fault .literal)) :
      ValueFault p root token raw (.badHex literal fault (.underAlpha token))

def TokenReads (p : Palette) (root : String) (node : Json) : Prop :=
  ∃ leaf text, Leaf.ofJson? node = some leaf ∧ ReadsAs p root leaf.value text

inductive TokenFault (p : Palette) (variant : Variant) (root category token : String)
    (node : Json) : Failure → Prop
  | notLeaf (other : Leaf.ofJson? node = none) :
      TokenFault p variant root category token node (.themedNotLeaf variant category token)
  | value {leaf : Leaf} {failure : Failure} (isLeaf : Leaf.ofJson? node = some leaf)
      (faulty : ValueFault p root token leaf.value failure) :
      TokenFault p variant root category token node failure

def CategoryReads (p : Palette) (root : String) (node : Json) : Prop :=
  ∃ tokens, node.members? = some tokens ∧
    ∀ token below, tokens.find? token = some below → TokenReads p root below

/-- What is wrong with a category: that it is no object, or its first faulty token. -/
inductive CategoryFault (p : Palette) (variant : Variant) (root category : String)
    (node : Json) : Failure → Prop
  | notObject (other : node.members? = none) :
      CategoryFault p variant root category node
        (.categoryNotObject variant category node.kindPhrase)
  | token {tokens : Table String Json} {token : String} {below : Json} {failure : Failure}
      (members : node.members? = some tokens) (found : tokens.find? token = some below)
      (first : ∀ earlier other, tokens.find? earlier = some other → earlier < token →
        TokenReads p root other)
      (faulty : TokenFault p variant root category token below failure) :
      CategoryFault p variant root category node failure

/-- What is wrong with a section is what is wrong with its first faulty category. -/
structure SectionFault (categories : Table String Json) (p : Palette) (variant : Variant)
    (root category : String) (failure : Failure) : Prop where
  faulty : ∃ node, categories.find? category = some node ∧
    CategoryFault p variant root category node failure
  first : ∀ earlier other, categories.find? earlier = some other → earlier < category →
    CategoryReads p root other

/-- An entry says what its leaf says, with the value that the leaf's value comes down to. -/
structure EntryOf (p : Palette) (root : String) (leaf : Leaf) (entry : ThemeEntry) : Prop where
  kind : entry.leaf.kind = leaf.kind
  value : ReadsAs p root leaf.value entry.leaf.value
  notReference : Reference.key? root entry.leaf.value = none
  overridden : AlphaOverride.isForm leaf.value = true →
    Colour.Canonical entry.leaf.value ∧ ∃ core alpha colour,
      Overrides p root leaf.value core alpha ∧ Colour.ofHex entry.leaf.value .literal = .ok colour ∧
        colour.red = core.red ∧ colour.green = core.green ∧ colour.blue = core.blue

variable {p : Palette} {variant : Variant} {root : String}

section Values
variable {token raw : String}

theorem literal?_eq_some_iff_holds {reference literal : String} :
    literal? p root reference = some literal ↔ p.Holds root reference literal := literal?_eq_some

theorem literal?_eq_none {reference : String} :
    literal? p root reference = none ↔ ∀ literal, ¬ p.Holds root reference literal := by
  simp only [← literal?_eq_some_iff_holds, Option.eq_none_iff_forall_ne_some, ne_eq]

theorem resolveValue_of_plain (form : AlphaOverride.isForm raw = false) :
    resolveValue p root token raw = plainValue p root token raw := by
  simp [resolveValue, form]

theorem resolveValue_of_form (form : AlphaOverride.isForm raw = true) :
    resolveValue p root token raw = overriddenValue p root token raw := by
  simp [resolveValue, form]

theorem resolveValue_eq_ok {text : String} :
    resolveValue p root token raw = .ok text ↔ ReadsAs p root raw text := by
  cases form : AlphaOverride.isForm raw with
  | false =>
      rw [resolveValue_of_plain form, plainValue_eq_ok]
      constructor
      · intro h
        exact .plain form (literal?_eq_some_iff_holds.1 h)
      · intro h
        cases h with
        | plain _ holds => exact literal?_eq_some_iff_holds.2 holds
        | overridden form' => cases form.symm.trans form'
  | true =>
      rw [resolveValue_of_form form, overriddenValue_eq_ok]
      constructor
      · intro h
        obtain ⟨override, literal, core, read, found, spelled, rfl⟩ := h
        exact .overridden form ⟨override, literal, read, rfl, literal?_eq_some.1 found,
          Colour.ofHex_eq_ok_iff_literal.1 spelled⟩
      · intro h
        cases h with
        | plain form' => cases form.symm.trans form'
        | overridden _ overrides =>
            obtain ⟨override, literal, read, rfl, holds, spelled⟩ := overrides
            exact ⟨override, literal, _, read, literal?_eq_some.2 holds,
              Colour.ofHex_eq_ok_iff_literal.2 spelled, rfl⟩

theorem plainValue_eq_error {failure : Failure} :
    plainValue p root token raw = .error failure ↔
      literal? p root raw = none ∧ failure = .unresolved token raw := by
  unfold plainValue
  cases literal? p root raw <;> simp [eq_comm]

theorem overriddenValue_eq_error {failure : Failure} :
    overriddenValue p root token raw = .error failure ↔
      AlphaOverride.read raw = .error failure ∨
        ∃ override, AlphaOverride.read raw = .ok override ∧
          (literal? p root override.reference = none ∧ failure = .unresolved token raw ∨
            ∃ literal, literal? p root override.reference = some literal ∧
              Colour.ofHex literal (.underAlpha token) = .error failure) := by
  rw [overriddenValue, bind_eq_error]
  refine or_congr_right (exists_congr fun override => and_congr_right fun _ => ?_)
  cases literal? p root override.reference with
  | none => simp [eq_comm]
  | some literal =>
      simp only [reduceCtorEq, false_and, Option.some.injEq, exists_eq_left', false_or]
      exact bind_pure_eq_error

theorem resolveValue_eq_error {failure : Failure} :
    resolveValue p root token raw = .error failure ↔ ValueFault p root token raw failure := by
  cases form : AlphaOverride.isForm raw with
  | false =>
      rw [resolveValue_of_plain form, plainValue_eq_error, literal?_eq_none]
      constructor
      · rintro ⟨nowhere, rfl⟩
        exact .plain form nowhere
      · intro h
        cases h with
        | plain _ nowhere => exact ⟨nowhere, rfl⟩
        | malformed form' | overridden form' | misspelled form' => cases form.symm.trans form'
  | true =>
      rw [resolveValue_of_form form, overriddenValue_eq_error]
      constructor
      · rintro (read | ⟨override, read, ⟨nowhere, rfl⟩ | ⟨literal, found, wrong⟩⟩)
        · exact .malformed form read
        · exact .overridden form read (literal?_eq_none.1 nowhere)
        · obtain ⟨fault, misspelled, rfl⟩ := Colour.ofHex_eq_error_iff_literal.1 wrong
          exact .misspelled form read (literal?_eq_some.1 found) misspelled
      · intro h
        cases h with
        | plain form' => cases form.symm.trans form'
        | malformed _ read => exact .inl read
        | overridden _ read nowhere =>
            exact .inr ⟨_, read, .inl ⟨literal?_eq_none.2 nowhere, rfl⟩⟩
        | misspelled _ read holds wrong =>
            exact .inr ⟨_, read, .inr ⟨_, literal?_eq_some.2 holds,
              Colour.ofHex_eq_error_iff_literal.2 ⟨_, wrong, rfl⟩⟩⟩

theorem key?_hex (c : Colour) : Reference.key? root c.hex = none := by
  have noBrace : Reference.inner? c.hex.toList = none := by
    rw [Reference.inner?, Colour.trim_hex]
    simp [Colour.hex]
  rw [Reference.key?, Reference.keyChars?, noBrace]
  rfl

/-- What a value comes down to is never followed any further. -/
theorem ReadsAs.not_reference {text : String} (h : ReadsAs p root raw text) :
    Reference.key? root text = none := by
  cases h with
  | plain _ holds =>
      obtain ⟨_, _, _, _, literal, rfl⟩ := holds
      exact literal
  | overridden => exact key?_hex _

theorem read_ne_unresolved {name value : String} :
    AlphaOverride.read raw ≠ .error (.unresolved name value) := by
  unfold AlphaOverride.read
  split
  · simp
  · split <;> simp

/-- A value that is reported as unresolved is reported for its own token and as it is written. -/
theorem ValueFault.of_unresolved {name value : String}
    (h : ValueFault p root token raw (.unresolved name value)) : name = token ∧ value = raw := by
  cases h with
  | plain | overridden => exact ⟨rfl, rfl⟩
  | malformed _ read => exact absurd read read_ne_unresolved

end Values

section Faults
variable {category token : String} {node : Json} {failure : Failure}

theorem readToken_succeeds_iff :
    (∃ entry, readToken p variant root category (token, node) = .ok entry) ↔
      TokenReads p root node := by
  simp only [readToken_succeeds, resolveValue_eq_ok, TokenReads]

theorem readToken_eq_error :
    readToken p variant root category (token, node) = .error failure ↔
      TokenFault p variant root category token node failure := by
  unfold readToken
  cases isLeaf : Leaf.ofJson? node with
  | none =>
      constructor
      · intro h
        obtain rfl := Except.error.inj h
        exact .notLeaf isLeaf
      · intro h
        cases h with
        | notLeaf => rfl
        | value isLeaf' => cases isLeaf.symm.trans isLeaf'
  | some leaf =>
      refine bind_pure_eq_error.trans (resolveValue_eq_error.trans ?_)
      constructor
      · exact .value isLeaf
      · intro h
        cases h with
        | notLeaf other => cases isLeaf.symm.trans other
        | value isLeaf' faulty =>
            obtain rfl := Option.some.inj (isLeaf.symm.trans isLeaf')
            exact faulty

theorem readCategory_succeeds_iff :
    (∃ group, readCategory p variant root (category, node) = .ok group) ↔
      CategoryReads p root node := by
  simp only [readCategory_succeeds, resolveValue_eq_ok, CategoryReads, TokenReads]

theorem readCategory_eq_error :
    readCategory p variant root (category, node) = .error failure ↔
      CategoryFault p variant root category node failure := by
  unfold readCategory
  cases members : node.members? with
  | none =>
      constructor
      · intro h
        obtain rfl := Except.error.inj h
        exact .notObject members
      · intro h
        cases h with
        | notObject => rfl
        | token members' => cases members.symm.trans members'
  | some tokens =>
      refine Table.mapM_entries_eq_error.trans ?_
      simp only [readToken_succeeds_iff, readToken_eq_error]
      constructor
      · intro h
        obtain ⟨token, below, found, first, faulty⟩ := h
        exact .token members found first faulty
      · intro h
        cases h with
        | notObject other => cases members.symm.trans other
        | token members' found first faulty =>
            obtain rfl := Option.some.inj (members.symm.trans members')
            exact ⟨_, _, found, first, faulty⟩

variable {categories : Table String Json}

theorem read_eq_error :
    read categories p variant root = .error failure ↔
      ∃ category, SectionFault categories p variant root category failure := by
  refine bind_pure_eq_error.trans (Table.mapM_entries_eq_error.trans ?_)
  simp only [readCategory_succeeds_iff, readCategory_eq_error]
  constructor
  · intro h
    obtain ⟨category, node, found, first, faulty⟩ := h
    exact ⟨category, ⟨node, found, faulty⟩, first⟩
  · intro h
    obtain ⟨category, ⟨node, found, faulty⟩, first⟩ := h
    exact ⟨category, node, found, first, faulty⟩

theorem SectionFault.of_unresolved {value : String}
    (h : SectionFault categories p variant root category (.unresolved token value)) :
    ∃ leaf, leafAt? categories category token = some leaf ∧ value = leaf.value ∧
      ∀ text, ¬ ReadsAs p root leaf.value text := by
  obtain ⟨node, found, faulty⟩ := h.faulty
  cases faulty with
  | token members here _ faulty =>
      cases faulty with
      | value isLeaf faulty =>
          obtain ⟨rfl, rfl⟩ := faulty.of_unresolved
          refine ⟨_, ?_, rfl, ?_⟩
          · rw [leafAt?, nodeAt?_eq_some.2 ⟨node, _, found, members, here⟩]
            exact isLeaf
          · intro text reads
            cases (resolveValue_eq_ok.2 reads).symm.trans (resolveValue_eq_error.2 faulty)

end Faults

section Entries
variable {categories : Table String Json} {t : Theme}

theorem ReadsAs.overrides {raw text : String} (h : ReadsAs p root raw text)
    (form : AlphaOverride.isForm raw = true) :
    ∃ core alpha, Overrides p root raw core alpha ∧ text = (core.withAlpha alpha).hex := by
  cases h with
  | plain form' => cases form.symm.trans form'
  | overridden _ overrides => exact ⟨_, _, overrides, rfl⟩

theorem entryOf_of_read (h : read categories p variant root = .ok t) {entry : ThemeEntry}
    (hentry : entry ∈ t.entries) :
    ∃ leaf, leafAt? categories entry.category entry.token = some leaf ∧
      EntryOf p root leaf entry := by
  obtain ⟨leaf, text, atLeaf, resolves, own⟩ := (mem_entries_of_read h entry).1 hentry
  have reads : ReadsAs p root leaf.value entry.leaf.value := by
    rw [own]
    exact resolveValue_eq_ok.1 resolves
  refine ⟨leaf, atLeaf, by rw [own], reads, reads.not_reference, ?_⟩
  intro form
  obtain ⟨core, alpha, overrides, written⟩ := reads.overrides form
  rw [written]
  exact ⟨Colour.canonical_hex _, core, alpha, _, overrides, Colour.ofHex_hex _ _, rfl, rfl, rfl⟩

theorem mem_names_of_read (h : read categories p variant root = .ok t) (name : TokenName) :
    name ∈ t.entries.map ThemeEntry.name ↔
      (nodeAt? categories name.category name.token).isSome := by
  rw [names_of_read h, mem_leafNames]
  constructor
  · intro present
    obtain ⟨leaf, atLeaf⟩ := Option.isSome_iff_exists.1 present
    obtain ⟨node, here, -⟩ := Option.bind_eq_some_iff.1 atLeaf
    rw [here]
    rfl
  · intro present
    obtain ⟨node, here⟩ := Option.isSome_iff_exists.1 present
    obtain ⟨value, tokens, found, members, below⟩ := nodeAt?_eq_some.1 here
    obtain ⟨tokens', members', readable⟩ := read_succeeds.1 ⟨t, h⟩ name.category value found
    obtain rfl := Option.some.inj (members.symm.trans members')
    obtain ⟨leaf, _, isLeaf, -⟩ := readable name.token node below
    rw [leafAt?, here, Option.bind_some, isLeaf]
    rfl

theorem ascending_names_of_read (h : read categories p variant root = .ok t) :
    (t.entries.map ThemeEntry.name).Pairwise (· < ·) := by
  rw [names_of_read h]
  exact ascending_leafNames categories

/-- Names that come up only once lead to their entries. -/
theorem find?_eq_some_of_ascending (h : (t.entries.map ThemeEntry.name).Pairwise (· < ·))
    {category token : String} {entry : ThemeEntry} :
    t.find? category token = some entry ↔ entry ∈ t.entries ∧ entry.name = ⟨category, token⟩ := by
  constructor
  · intro found
    have named := List.find?_some found
    simp only [Bool.and_eq_true, decide_eq_true_eq] at named
    refine ⟨List.mem_of_find?_eq_some found, ?_⟩
    rw [ThemeEntry.name, named.1, named.2]
  · intro member
    cases found : t.find? category token with
    | none =>
        have missing := List.find?_eq_none.1 found entry member.1
        obtain ⟨rfl, rfl⟩ := TokenName.mk.inj member.2
        simp at missing
    | some other =>
        have named := List.find?_some found
        simp only [Bool.and_eq_true, decide_eq_true_eq] at named
        have same : other.name = entry.name := by
          rw [member.2, ThemeEntry.name, named.1, named.2]
        have distinct := Table.nodup_of_ascending h
        exact congrArg some (List.inj_on_of_nodup_map distinct (List.mem_of_find?_eq_some found)
          member.1 same)

end Entries

/-- A section is read exactly when all of it can be, into one entry for each of its tokens, none of
them a reference any more. Otherwise the first thing wrong with it is reported, and an unresolved
value as it is written. -/
theorem read_reads_section (categories : Table String Json) (p : Palette) (variant : Variant)
    (root : String) :
    ((∃ t, read categories p variant root = .ok t) ↔
        ∀ category node, categories.find? category = some node → CategoryReads p root node) ∧
      (∀ t, read categories p variant root = .ok t →
        t.variant = variant ∧
          (t.entries.map ThemeEntry.name).Pairwise (· < ·) ∧
          (∀ name, name ∈ t.entries.map ThemeEntry.name ↔
            (nodeAt? categories name.category name.token).isSome) ∧
          (∀ entry ∈ t.entries, ∃ leaf,
            leafAt? categories entry.category entry.token = some leaf ∧
              EntryOf p root leaf entry) ∧
          ∀ category token entry, t.find? category token = some entry ↔
            entry ∈ t.entries ∧ entry.name = ⟨category, token⟩) ∧
      (∀ failure, read categories p variant root = .error failure ↔
        ∃ category, SectionFault categories p variant root category failure) ∧
      ∀ token value, read categories p variant root = .error (.unresolved token value) →
        ∃ category leaf, SectionFault categories p variant root category (.unresolved token value) ∧
          leafAt? categories category token = some leaf ∧ value = leaf.value ∧
          ∀ text, ¬ ReadsAs p root leaf.value text := by
  refine ⟨?_, ?_, fun _ => read_eq_error, ?_⟩
  · rw [read_succeeds]
    simp only [resolveValue_eq_ok]
    rfl
  · intro t h
    have ascending := ascending_names_of_read h
    refine ⟨?_, ascending, mem_names_of_read h, fun _ => entryOf_of_read h, ?_⟩
    · obtain ⟨groups, -, done⟩ := bind_eq_ok.1 h
      obtain rfl := Except.ok.inj done
      rfl
    · exact fun _ _ _ => find?_eq_some_of_ascending ascending
  · intro token value h
    obtain ⟨category, faulty⟩ := read_eq_error.1 h
    obtain ⟨leaf, atLeaf, own, nowhere⟩ := faulty.of_unresolved
    exact ⟨category, leaf, faulty, atLeaf, own, nowhere⟩

/-- A blue and a token that leads out of the palette. -/
def bluePalette : Palette :=
  Table.ofList [("blue", ⟨"color", "#0000FF"⟩), ("lost", ⟨"color", "{Colors.Nowhere}"⟩)]

/-- A value in one category behind a plain one in another. -/
def blueSection (value : String) : Table String Json :=
  Table.ofList [
    ("Text", .object [("title", .object [("type", .string "paint"), ("value", .string value)])]),
    ("Icon", .object [("plain", .object [("type", .string "color"), ("value", .string "{Blue}")])])]

theorem read_reads_section_blue :
    (∃ t entry,
      read (blueSection "rgba( {Colors.Blue}, 0.5)") bluePalette .dark "Colors" = .ok t ∧
        t.find? "Text" "title" = some entry ∧ entry.leaf = ⟨"paint", "#0000ff80"⟩ ∧
        Colour.Canonical entry.leaf.value) ∧
      ∃ category leaf,
        SectionFault (blueSection "rgba( {Lost}, 1)") bluePalette .dark "Colors" category
            (.unresolved "title" "rgba( {Lost}, 1)") ∧
          leafAt? (blueSection "rgba( {Lost}, 1)") category "title" = some leaf ∧
          ∀ text, ¬ ReadsAs bluePalette "Colors" leaf.value text := by
  constructor
  · have answer : read (blueSection "rgba( {Colors.Blue}, 0.5)") bluePalette .dark "Colors" =
        .ok ⟨.dark, [⟨"Icon", "plain", ⟨"color", "#0000FF"⟩⟩,
          ⟨"Text", "title", ⟨"paint", "#0000ff80"⟩⟩]⟩ := by decide +kernel
    obtain ⟨-, reads, -⟩ :=
      read_reads_section (blueSection "rgba( {Colors.Blue}, 0.5)") bluePalette .dark "Colors"
    obtain ⟨-, -, -, entries, found⟩ := reads _ answer
    have member : (⟨"Text", "title", ⟨"paint", "#0000ff80"⟩⟩ : ThemeEntry) ∈
        [⟨"Icon", "plain", ⟨"color", "#0000FF"⟩⟩, ⟨"Text", "title", ⟨"paint", "#0000ff80"⟩⟩] := by
      decide
    obtain ⟨leaf, atLeaf, own⟩ := entries _ member
    have here : leafAt? (blueSection "rgba( {Colors.Blue}, 0.5)") "Text" "title" =
        some ⟨"paint", "rgba( {Colors.Blue}, 0.5)"⟩ := by decide +kernel
    obtain rfl := Option.some.inj (here.symm.trans atLeaf)
    have form : AlphaOverride.isForm "rgba( {Colors.Blue}, 0.5)" = true := by decide +kernel
    exact ⟨_, _, answer, (found _ _ _).2 ⟨member, rfl⟩, rfl, (own.overridden form).1⟩
  · obtain ⟨-, -, -, unresolved⟩ :=
      read_reads_section (blueSection "rgba( {Lost}, 1)") bluePalette .dark "Colors"
    obtain ⟨category, leaf, faulty, atLeaf, -, nowhere⟩ :=
      unresolved "title" "rgba( {Lost}, 1)" (by decide +kernel)
    exact ⟨category, leaf, faulty, atLeaf, nowhere⟩

end Theme

end DesignTokens
