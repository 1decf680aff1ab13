import DesignTokens.Compile
import DesignTokens.Proofs.DeclaredNames
import DesignTokens.Proofs.PrintedNumbers

/-!
The text of declarations that passed the check of their names. Each of its lines is one of a few
templates that are filled with checked names and printed numbers only, and since neither can hold
a delimiter, the delimiters of the templates balance. So the check of the text never fails.
-/
namespace DesignTokens.Swift

theorem spaced_cons (first : List String) (rest : List (List String)) :
    spaced (first :: rest) = first ++ rest.flatMap fun b => "" :: b := by
  induction rest generalizing first with
  | nil => simp [spaced]
  | cons second rest ih =>
      rw [spaced, ih, List.flatMap_cons, List.cons_append]
      exact List.cons_ne_nil second rest

/-- The lines with nothing to fill in. -/
def fixedLines : List String := header ++ [
  "            return traitCollection.userInterfaceStyle == .light",
  "        \x7d)",
  "    \x7d",
  "\x7d",
  ""]

def colourTemplate (red green blue alpha : Binary64) : String :=
  "UIColor(red: " ++ literal red ++ ", green: " ++ literal green ++ ", blue: " ++ literal blue ++
    ", alpha: " ++ literal alpha ++ ")"

/-- The templates of the lines of the text for `d`. -/
inductive FollowsTemplate (d : Declarations) : String → Prop
  | fixed {line : String} (known : line ∈ fixedLines) : FollowsTemplate d line
  | enum {name : String} (declared : d.Declares name) :
      FollowsTemplate d ("public enum " ++ name ++ " \x7b")
  | innerEnum {name : String} (declared : d.Declares name) :
      FollowsTemplate d ("    public enum " ++ name ++ " \x7b")
  | colour {name : String} (declared : d.Declares name) :
      FollowsTemplate d ("        public static let " ++ name ++
        " = UIColor(dynamicProvider: \x7b traitCollection in")
  | light (red green blue alpha : Binary64) :
      FollowsTemplate d ("                ? " ++ colourTemplate red green blue alpha)
  | dark (red green blue alpha : Binary64) :
      FollowsTemplate d ("                : " ++ colourTemplate red green blue alpha)
  | sizeComment (value : Binary64) : FollowsTemplate d ("    /// " ++ comment value ++ "pt")
  | size {name : String} (declared : d.Declares name) (value : Binary64) :
      FollowsTemplate d ("    public static let " ++ name ++ " = CGFloat(" ++ literal value ++ ")")

section Templates

theorem inert_literal (x : Binary64) : Inert (literal x).toList := (numberText_literal x).inert

theorem inert_comment (x : Binary64) : Inert (comment x).toList := (numberText_comment x).inert

/-- What fills a template exposes nothing. -/
theorem exposed_filled {before hole : String} (code : IsCode before.toList)
    (inert : Inert hole.toList) (after : List Char) :
    exposed .code (before.toList ++ (hole.toList ++ after)) =
      (exposed .code after).map fun ds => before.toList.filter isDelimiter ++ ds := by
  rw [exposed_append code, inert.exposed]

theorem exposed_enum {name : String} (h : Inert name.toList) :
    exposed .code ("public enum " ++ name ++ " \x7b").toList = some ['{'] := by
  simp only [String.toList_append, List.append_assoc]
  rw [exposed_filled (by decide) h]
  decide

theorem exposed_innerEnum {name : String} (h : Inert name.toList) :
    exposed .code ("    public enum " ++ name ++ " \x7b").toList = some ['{'] := by
  simp only [String.toList_append, List.append_assoc]
  rw [exposed_filled (by decide) h]
  decide

theorem exposed_colour {name : String} (h : Inert name.toList) :
    exposed .code ("        public static let " ++ name ++
      " = UIColor(dynamicProvider: \x7b traitCollection in").toList = some ['(', '{'] := by
  simp only [String.toList_append, List.append_assoc]
  rw [exposed_filled (by decide) h]
  decide

theorem exposed_size {name : String} (h : Inert name.toList) (x : Binary64) :
    exposed .code ("    public static let " ++ name ++ " = CGFloat(" ++ literal x ++ ")").toList =
      some ['(', ')'] := by
  simp only [String.toList_append, List.append_assoc]
  rw [exposed_filled (by decide) h, exposed_filled (by decide) (inert_literal x)]
  decide

theorem exposed_colourTemplate {before : String} (h : Inert before.toList)
    (red green blue alpha : Binary64) :
    exposed .code (before ++ colourTemplate red green blue alpha).toList = some ['(', ')'] := by
  unfold colourTemplate
  rw [String.toList_append, h.exposed]
  simp only [String.toList_append, List.append_assoc]
  have beforeGreen : Inert (String.toList ", green: ") := by decide
  have beforeBlue : Inert (String.toList ", blue: ") := by decide
  have beforeAlpha : Inert (String.toList ", alpha: ") := by decide
  rw [exposed_filled (by decide) (inert_literal red), beforeGreen.exposed,
    (inert_literal green).exposed, beforeBlue.exposed, (inert_literal blue).exposed,
    beforeAlpha.exposed, (inert_literal alpha).exposed]
  decide

theorem exposed_sizeComment (x : Binary64) :
    exposed .code ("    /// " ++ comment x ++ "pt").toList = some [] := by
  have blanks : Inert (String.toList "    ") := by decide
  have slashes : String.toList "    /// " = String.toList "    " ++ ['/', '/', '/', ' '] := by
    decide
  rw [String.toList_append, String.toList_append, slashes, List.append_assoc, List.append_assoc,
    blanks.exposed]
  simp [exposed]

theorem newline_not_mem_fixed : ∀ line ∈ fixedLines, '\n' ∉ line.toList := by
  decide +kernel

theorem Inert.newline_not_mem {cs : List Char} (h : Inert cs) : '\n' ∉ cs := by
  intro hc
  exact h _ hc (by decide)

theorem newline_not_mem_append {a b : String} (ha : '\n' ∉ a.toList) (hb : '\n' ∉ b.toList) :
    '\n' ∉ (a ++ b).toList := by
  rw [String.toList_append, List.mem_append, not_or]
  exact ⟨ha, hb⟩

theorem newline_not_mem_filled {before hole after : String} (hb : '\n' ∉ before.toList)
    (hh : Inert hole.toList) (ha : '\n' ∉ after.toList) :
    '\n' ∉ (before ++ hole ++ after).toList :=
  newline_not_mem_append (newline_not_mem_append hb hh.newline_not_mem) ha

theorem newline_not_mem_colourTemplate (red green blue alpha : Binary64) :
    '\n' ∉ (colourTemplate red green blue alpha).toList := by
  unfold colourTemplate
  refine newline_not_mem_filled ?_ (inert_literal alpha) (by decide)
  refine newline_not_mem_filled ?_ (inert_literal blue) (by decide)
  refine newline_not_mem_filled ?_ (inert_literal green) (by decide)
  exact newline_not_mem_filled (by decide) (inert_literal red) (by decide)

theorem FollowsTemplate.newline_not_mem {d : Declarations} {line : String}
    (h : FollowsTemplate d line) : '\n' ∉ line.toList := by
  cases h with
  | fixed known => exact newline_not_mem_fixed _ known
  | enum declared => exact newline_not_mem_filled (by decide) declared.inert (by decide)
  | innerEnum declared => exact newline_not_mem_filled (by decide) declared.inert (by decide)
  | colour declared => exact newline_not_mem_filled (by decide) declared.inert (by decide)
  | light red green blue alpha =>
      exact newline_not_mem_append (by decide) (newline_not_mem_colourTemplate red green blue alpha)
  | dark red green blue alpha =>
      exact newline_not_mem_append (by decide) (newline_not_mem_colourTemplate red green blue alpha)
  | sizeComment value => exact newline_not_mem_filled (by decide) (inert_comment value) (by decide)
  | size declared value =>
      refine newline_not_mem_filled ?_ (inert_literal value) (by decide)
      exact newline_not_mem_filled (by decide) declared.inert (by decide)

end Templates

/-- Lines that follow templates and whose delimiters balance. -/
structure WellFormed (d : Declarations) (block : List String) : Prop where
  follows : ∀ line ∈ block, FollowsTemplate d line
  balanced : ∃ ds, exposedLines (block.map String.toList) = some ds ∧ Balanced ds

section Blocks
variable {d : Declarations}

namespace WellFormed

theorem nil : WellFormed d [] where
  follows := by simp
  balanced := ⟨[], rfl, .nil⟩

theorem line {text : String} {ds : List Char} (follows : FollowsTemplate d text)
    (exposes : exposed .code text.toList = some ds) (balanced : Balanced ds) :
    WellFormed d [text] where
  follows := List.forall_mem_singleton.2 follows
  balanced := by
    refine ⟨ds ++ [], ?_, balanced.append .nil⟩
    rw [List.map_singleton, exposedLines, exposes]
    rfl

theorem fixed {text : String} (known : text ∈ fixedLines) (inert : Inert text.toList) :
    WellFormed d [text] := by
  have nothing := inert.exposed []
  rw [List.append_nil] at nothing
  exact .line (.fixed known) nothing .nil

theorem append {a b : List String} (ha : WellFormed d a) (hb : WellFormed d b) :
    WellFormed d (a ++ b) where
  follows := List.forall_mem_append.2 ⟨ha.follows, hb.follows⟩
  balanced := by
    obtain ⟨ds, exposes, balanced⟩ := ha.balanced
    obtain ⟨others, exposes', balanced'⟩ := hb.balanced
    refine ⟨ds ++ others, ?_, balanced.append balanced'⟩
    rw [List.map_append, exposedLines_append, exposes, exposes']
    rfl

/-- Lines in front and behind whose delimiters match each other. -/
theorem enclosed {first last : String} {body : List String} {opening closing : List Char}
    (h : WellFormed d body) (follows : FollowsTemplate d first) (known : last ∈ fixedLines)
    (front : exposed .code first.toList = some opening)
    (back : exposed .code last.toList = some closing)
    (fits : ∀ inner, Balanced inner → Balanced (opening ++ inner ++ closing)) :
    WellFormed d (first :: body ++ [last]) where
  follows := List.forall_mem_append.2 ⟨List.forall_mem_cons.2 ⟨follows, h.follows⟩,
    List.forall_mem_singleton.2 (.fixed known)⟩
  balanced := by
    obtain ⟨ds, exposes, balanced⟩ := h.balanced
    refine ⟨opening ++ ds ++ closing, ?_, fits ds balanced⟩
    rw [List.map_append, exposedLines_append, List.map_cons, exposedLines, front, exposes,
      List.map_singleton, exposedLines, back]
    simp [exposedLines]

theorem braced {first last : String} {body : List String} (h : WellFormed d body)
    (follows : FollowsTemplate d first) (known : last ∈ fixedLines)
    (front : exposed .code first.toList = some ['{'])
    (back : exposed .code last.toList = some ['}']) :
    WellFormed d (first :: body ++ [last]) := by
  refine h.enclosed follows known front back ?_
  intro inner balanced
  exact balanced.pair rfl

theorem blank : WellFormed d [""] := .fixed (by simp [fixedLines]) (by decide)

theorem spaced {blocks : List (List String)} (h : ∀ b ∈ blocks, WellFormed d b) :
    WellFormed d (spaced blocks) := by
  fun_induction Swift.spaced blocks with
  | case1 => exact .nil
  | case2 block => exact h block List.mem_cons_self
  | case3 block rest _ ih =>
      obtain ⟨first, others⟩ := List.forall_mem_cons.1 h
      exact first.append (blank.append (ih others))

end WellFormed

theorem wellFormed_header : WellFormed d header where
  follows := by
    intro line h
    exact .fixed (List.mem_append_left _ h)
  balanced :=
    ⟨['{', '{', '(', ')', '{', '(', ')', '}', '{', '(', ')', '}', '}', '}'], by decide +kernel,
      by decide⟩

theorem wellFormed_colourLines {c : ColourConstant} (h : d.Declares c.name) :
    WellFormed d (colourLines c) := by
  have condition : WellFormed d
      ["            return traitCollection.userInterfaceStyle == .light"] :=
    .fixed (by simp [fixedLines]) (by decide)
  have light : WellFormed d ["                ? " ++ colourLiteral c.light] :=
    .line (.light _ _ _ _) (exposed_colourTemplate (by decide) _ _ _ _) (by decide)
  have dark : WellFormed d ["                : " ++ colourLiteral c.dark] :=
    .line (.dark _ _ _ _) (exposed_colourTemplate (by decide) _ _ _ _) (by decide)
  have back : exposed .code (String.toList "        \x7d)") = some ['}', ')'] := by decide
  refine (condition.append (light.append dark)).enclosed (.colour h) (by simp [fixedLines])
    (exposed_colour h.inert) back ?_
  intro inner balanced
  simpa using Balanced.pair rfl (balanced.pair rfl)

theorem wellFormed_groupLines {g : ColourGroup} (hg : d.Declares g.name)
    (hc : ∀ c ∈ g.constants, d.Declares c.name) : WellFormed d (groupLines g) := by
  have constants : WellFormed d (spaced (g.constants.map colourLines)) := by
    refine .spaced ?_
    intro block hblock
    obtain ⟨c, hmem, rfl⟩ := List.mem_map.1 hblock
    exact wellFormed_colourLines (hc c hmem)
  exact constants.braced (.innerEnum hg) (by simp [fixedLines]) (exposed_innerEnum hg.inert)
    (by decide)

theorem wellFormed_sizeLines {c : SizeConstant} (h : d.Declares c.name) :
    WellFormed d (sizeLines c) := by
  have text : WellFormed d ["    /// " ++ comment c.value ++ "pt"] :=
    .line (.sizeComment c.value) (exposed_sizeComment c.value) .nil
  exact text.append (.line (.size h c.value) (exposed_size h.inert c.value) (by decide))

theorem wellFormed_sizeGroupLines {g : SizeGroup} (hg : d.Declares g.name)
    (hc : ∀ c ∈ g.constants, d.Declares c.name) : WellFormed d (sizeGroupLines g) := by
  have constants : WellFormed d (spaced (g.constants.map sizeLines)) := by
    refine .spaced ?_
    intro block hblock
    obtain ⟨c, hmem, rfl⟩ := List.mem_map.1 hblock
    exact wellFormed_sizeLines (hc c hmem)
  exact constants.braced (.enum hg) (by simp [fixedLines]) (exposed_enum hg.inert) (by decide)

theorem wellFormed_lines (valid : d.validate = .ok ()) : WellFormed d (lines d) := by
  have groups : WellFormed d (spaced (d.groups.map groupLines)) := by
    refine .spaced ?_
    intro block hblock
    obtain ⟨g, hg, rfl⟩ := List.mem_map.1 hblock
    exact wellFormed_groupLines (Declarations.declares_group valid hg)
      fun c hc => Declarations.declares_colour valid hg hc
  have outer : d.Declares d.colours := Declarations.declares_topLevel valid List.mem_cons_self
  have colours : WellFormed d (("public enum " ++ d.colours ++ " \x7b") ::
      spaced (d.groups.map groupLines) ++ ["\x7d"]) :=
    groups.braced (.enum outer) (by simp [fixedLines]) (exposed_enum outer.inert) (by decide)
  have sizes {g : SizeGroup} (hg : g ∈ [d.spacing, d.radius]) :
      WellFormed d (sizeGroupLines g) := by
    have declared : g.name ∈ [d.colours, d.spacing.name, d.radius.name] :=
      List.mem_cons_of_mem _ (List.mem_map_of_mem hg)
    exact wellFormed_sizeGroupLines (Declarations.declares_topLevel valid declared)
      fun c hc => Declarations.declares_size valid hg hc
  have spacing : WellFormed d (sizeGroupLines d.spacing) := sizes List.mem_cons_self
  have radius : WellFormed d (sizeGroupLines d.radius) :=
    sizes (List.mem_cons_of_mem _ List.mem_cons_self)
  have all := wellFormed_header.append
    (colours.append (.append .blank (spacing.append (.append .blank radius))))
  simpa only [lines, List.append_assoc, List.cons_append, List.nil_append] using all

end Blocks

theorem pieces_joined {texts : List String} (h : ∀ text ∈ texts, '\n' ∉ text.toList) :
    Text.pieces (· = '\n') (String.join (texts.map (· ++ "\n"))).toList =
      texts.map String.toList ++ [[]] := by
  induction texts with
  | nil => rfl
  | cons text rest ih =>
      obtain ⟨first, others⟩ := List.forall_mem_cons.1 h
      have plain : ∀ c ∈ text.toList, decide (c = '\n') = false := by
        intro c hc
        exact decide_eq_false fun same => first (same ▸ hc)
      have joined : (String.join ((text :: rest).map (· ++ "\n"))).toList =
          text.toList ++ '\n' :: (String.join (rest.map (· ++ "\n"))).toList := by
        simp
      rw [joined, Text.pieces_append plain (by decide), ih others]
      rfl

theorem pieces_render {d : Declarations} (valid : d.validate = .ok ()) :
    Text.pieces (· = '\n') (render d).toList = (lines d).map String.toList ++ [[]] :=
  pieces_joined fun line hline => ((wellFormed_lines valid).follows line hline).newline_not_mem

theorem checkDelimiters_render {d : Declarations} (valid : d.validate = .ok ()) :
    checkDelimiters (render d) = .ok () := by
  obtain ⟨ds, exposes, balanced⟩ := (wellFormed_lines valid).balanced
  rw [checkDelimiters_eq_ok]
  refine ⟨ds, ?_, balanced⟩
  rw [pieces_render valid, exposedLines_append, exposes]
  simp [exposedLines, exposed]

/-- The check of the text is never what makes emission fail. -/
theorem emit_eq_map_render (config : Config) (colours : List MergedEntry)
    (spacing radius : List Size) :
    emit config colours spacing radius =
      (Declarations.build config colours spacing radius).map render := by
  cases built : Declarations.build config colours spacing radius with
  | error fault => rw [emit, built]; rfl
  | ok d =>
      have valid := (Declarations.build_eq_ok.1 built).2
      have checked := checkDelimiters_render valid
      simp only [emit, built, bind, Except.bind, checked]
      rfl

/-- Emission fails only where the names do not pass, and otherwise gives out the rendered text as it
is: every line of it follows a template, and its delimiters are accepted. -/
theorem emit_follows_templates (config : Config) (colours : List MergedEntry)
    (spacing radius : List Size) :
    emit config colours spacing radius =
        (Declarations.build config colours spacing radius).map render ∧
      ∀ d, Declarations.build config colours spacing radius = .ok d →
        (∀ text ∈ Text.pieces (· = '\n') (render d).toList,
          FollowsTemplate d (String.ofList text)) ∧
        checkDelimiters (render d) = .ok () := by
  refine ⟨emit_eq_map_render config colours spacing radius, ?_⟩
  intro d built
  have valid := (Declarations.build_eq_ok.1 built).2
  refine ⟨?_, checkDelimiters_render valid⟩
  rw [pieces_render valid]
  intro text htext
  cases List.mem_append.1 htext with
  | inl inside =>
      obtain ⟨line, hline, rfl⟩ := List.mem_map.1 inside
      rw [String.ofList_toList]
      exact (wellFormed_lines valid).follows line hline
  | inr last =>
      rw [List.mem_singleton.1 last]
      exact WellFormed.blank.follows "" List.mem_cons_self

/-- A reserved word and a number as names of tokens, and a size that is no number at all. -/
theorem emit_follows_templates_reserved_word :
    ∃ d, Declarations.build {} [⟨⟨"nav", "class"⟩, .ofRGB 0 0 0, .ofRGB 9 9 9⟩]
        [⟨"8", .nan false⟩] [] = .ok d ∧
      d.Declares "`class`" ∧
      emit {} [⟨⟨"nav", "class"⟩, .ofRGB 0 0 0, .ofRGB 9 9 9⟩] [⟨"8", .nan false⟩] [] =
        .ok (render d) ∧
      checkDelimiters (render d) = .ok () := by
  have built : Declarations.build {} [⟨⟨"nav", "class"⟩, .ofRGB 0 0 0, .ofRGB 9 9 9⟩]
      [⟨"8", .nan false⟩] [] = .ok (Declarations.arrange {}
        [⟨⟨"nav", "class"⟩, .ofRGB 0 0 0, .ofRGB 9 9 9⟩] [⟨"8", .nan false⟩] []) := by
    refine Declarations.build_eq_ok.2 ⟨rfl, ?_⟩
    decide +kernel
  have emitted := emit_follows_templates {} [⟨⟨"nav", "class"⟩, .ofRGB 0 0 0, .ofRGB 9 9 9⟩]
    [⟨"8", .nan false⟩] []
  refine ⟨_, built, ?_, ?_, (emitted.2 _ built).2⟩
  · decide +kernel
  · rw [emitted.1, built]
    rfl

end DesignTokens.Swift
