import DesignTokens.Proofs.DeclaredNames

/-!
Reserved words among declared names. Whatever is made from the name of a token is escaped, so it
never is a reserved word. The three names at the top level are declared as they are configured, and
since every reserved word is an identifier, the check of names does not keep one out there.
-/
namespace DesignTokens.Swift

/-- A name the way a declaration needs it: an identifier that is no reserved word, or any
identifier between backticks. -/
def Declarable (name : String) : Prop :=
  (isIdentifier name ∧ ¬ isReserved name) ∨ ∃ bare, isIdentifier bare ∧ name = quote bare

theorem isReserved_iff {name : String} : isReserved name ↔ name ∈ reservedWords :=
  List.contains_iff_mem

theorem isIdentifier_of_isReserved {name : String} (h : isReserved name) : isIdentifier name := by
  have words : ∀ word ∈ reservedWords, isIdentifier word := by decide +kernel
  exact words name (isReserved_iff.1 h)

theorem toList_quote (name : String) :
    (quote name).toList = backtick :: name.toList ++ [backtick] := by
  simp [quote]

theorem unquote_quote (name : String) : unquote (quote name) = name := by
  have inner : Text.dropEnd? [backtick] (name.toList ++ [backtick]) = some name.toList :=
    Text.dropEnd?_eq_some.2 rfl
  simp [unquote, toList_quote, inner]

theorem unquote_of_isIdentifier {name : String} (h : isIdentifier name) : unquote name = name := by
  cases @unquote_eq_or name with
  | inl same => exact same
  | inr quoted =>
      have start : isIdentifierStart backtick = false := by decide
      simp [isIdentifier, quoted, isIdentifierChars, start] at h

theorem not_isReserved_quote (name : String) : ¬ isReserved (quote name) := by
  intro reserved
  have identifier := isIdentifier_of_isReserved reserved
  have start : isIdentifierStart backtick = false := by decide
  simp [isIdentifier, toList_quote, isIdentifierChars, start] at identifier

/-- Of the names that pass the check, only the reserved words cannot be declared. -/
theorem declarable_iff {name : String} (h : isIdentifier (unquote name)) :
    Declarable name ↔ ¬ isReserved name := by
  constructor
  · intro declarable
    rcases declarable with ⟨-, unreserved⟩ | ⟨bare, -, rfl⟩
    · exact unreserved
    · exact not_isReserved_quote bare
  · intro unreserved
    cases @unquote_eq_or name with
    | inl same => exact .inl ⟨same ▸ h, unreserved⟩
    | inr quoted =>
        refine .inr ⟨unquote name, h, String.toList_inj.1 ?_⟩
        rw [quoted, toList_quote]

theorem not_isReserved_escape (name : String) : ¬ isReserved (escape name) := by
  unfold escape
  split
  · exact not_isReserved_quote name
  · assumption

theorem not_isReserved_groupName (category : String) :
    ¬ isReserved (Naming.groupName category) := by
  unfold Naming.groupName
  exact not_isReserved_escape _

theorem not_isReserved_colourName (start category token : String) :
    ¬ isReserved (Naming.colourName start category token) := by
  unfold Naming.colourName
  exact not_isReserved_escape _

theorem not_isReserved_sizeName (start token : String) :
    ¬ isReserved (Naming.sizeName start token) := by
  unfold Naming.sizeName
  split
  · intro reserved
    have words : ∀ word ∈ reservedWords, word.toList.head? ≠ some '_' := by decide +kernel
    have other := words _ (isReserved_iff.1 reserved)
    simp at other
  · exact not_isReserved_escape _

namespace Declarations

def topLevelNames (d : Declarations) : List String := [d.colours, d.spacing.name, d.radius.name]

/-- The names made from categories and tokens: those of the groups of colours, of the colours in
them, and of the sizes. -/
def tokenNames (d : Declarations) : List String :=
  d.groups.map ColourGroup.name ++
    d.groups.flatMap (fun g => g.constants.map ColourConstant.name) ++
    (d.spacing.constants ++ d.radius.constants).map SizeConstant.name

theorem declares_tokenName {d : Declarations} (valid : d.validate = .ok ()) {name : String}
    (h : name ∈ d.tokenNames) : d.Declares name := by
  simp only [tokenNames, List.map_append, List.mem_append, List.mem_flatMap, List.mem_map] at h
  rcases h with (⟨g, hg, rfl⟩ | ⟨g, hg, c, hc, rfl⟩) | (⟨c, hc, rfl⟩ | ⟨c, hc, rfl⟩)
  · exact declares_group valid hg
  · exact declares_colour valid hg hc
  · exact declares_size valid List.mem_cons_self hc
  · exact declares_size valid (List.mem_cons_of_mem _ List.mem_cons_self) hc

theorem not_isReserved_tokenName (config : Config) (colours : List MergedEntry)
    (spacing radius : List Size) {name : String}
    (h : name ∈ (arrange config colours spacing radius).tokenNames) : ¬ isReserved name := by
  simp only [tokenNames, arrange, sizeGroup, List.map_append, List.mem_append, List.mem_flatMap,
    List.mem_map] at h
  rcases h with (⟨g, ⟨category, -, rfl⟩, rfl⟩ | ⟨g, ⟨category, -, rfl⟩, c, hc, rfl⟩) |
    (⟨c, ⟨s, -, rfl⟩, rfl⟩ | ⟨c, ⟨s, -, rfl⟩, rfl⟩)
  · simpa only [colourGroup] using not_isReserved_groupName category
  · obtain ⟨e, -, rfl⟩ := List.mem_map.1 hc
    simpa only [colourConstant] using not_isReserved_colourName _ e.name.category e.name.token
  · simpa only using not_isReserved_sizeName _ s.name
  · simpa only using not_isReserved_sizeName _ s.name

/-- Every name made from a token can be declared. Of the names at the top level, which are the
configured ones, exactly the reserved words cannot. -/
theorem declarable_names_of_build {config : Config} {colours : List MergedEntry}
    {spacing radius : List Size} {d : Declarations}
    (built : build config colours spacing radius = .ok d) :
    (∀ name ∈ d.tokenNames, Declarable name) ∧
      d.topLevelNames = [config.output.colours, config.output.spacing, config.output.radius] ∧
      ∀ name ∈ d.topLevelNames, Declarable name ↔ ¬ isReserved name := by
  obtain ⟨rfl, valid⟩ := build_eq_ok.1 built
  refine ⟨?_, rfl, ?_⟩
  · intro name h
    have passed := (declares_tokenName valid h).2
    exact (declarable_iff passed).2 (not_isReserved_tokenName config colours spacing radius h)
  · intro name h
    exact declarable_iff (declares_topLevel valid h).2

/-- A reserved word as a category, as a colour and as a configured name. -/
theorem declarable_names_of_build_class :
    ∃ d, build { output := { spacing := "class" } }
        [⟨⟨"any", "class"⟩, .ofRGB 0 0 0, .ofRGB 9 9 9⟩] [⟨"8", .zero⟩] [] = .ok d ∧
      "\x60Any\x60" ∈ d.tokenNames ∧ Declarable "\x60Any\x60" ∧ Declarable "\x60class\x60" ∧
      Declarable "TokenColors" ∧ ¬ Declarable "class" := by
  have built : build { output := { spacing := "class" } }
      [⟨⟨"any", "class"⟩, .ofRGB 0 0 0, .ofRGB 9 9 9⟩] [⟨"8", .zero⟩] [] =
        .ok (arrange { output := { spacing := "class" } }
          [⟨⟨"any", "class"⟩, .ofRGB 0 0 0, .ofRGB 9 9 9⟩] [⟨"8", .zero⟩] []) :=
    build_eq_ok.2 ⟨rfl, by decide +kernel⟩
  obtain ⟨tokens, configured, topLevel⟩ := declarable_names_of_build built
  rw [configured] at topLevel
  refine ⟨_, built, by decide +kernel, tokens _ (by decide +kernel), tokens _ (by decide +kernel),
    (topLevel "TokenColors" (by decide)).2 (by decide), fun declarable => ?_⟩
  exact (topLevel "class" (by decide)).1 declarable (by decide)

/-- The check of names alone does not keep reserved words from being declared. -/
theorem not_every_declared_name_declarable :
    ¬ ∀ config colours spacing radius d, build config colours spacing radius = .ok d →
      ∀ name ∈ d.topLevelNames ++ d.tokenNames, Declarable name := by
  intro always
  have built : build { output := { colours := "class" } } [] [] [] =
      .ok (arrange { output := { colours := "class" } } [] [] []) :=
    build_eq_ok.2 ⟨rfl, by decide +kernel⟩
  have declarable : Declarable "class" :=
    always _ _ _ _ _ built "class" (List.mem_append_left _ List.mem_cons_self)
  have identifier : isIdentifier (unquote "class") := by decide
  exact (declarable_iff identifier).1 declarable (by decide)

end Declarations

end DesignTokens.Swift
