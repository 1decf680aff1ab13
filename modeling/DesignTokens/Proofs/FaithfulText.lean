import DesignTokens.Proofs.ChannelIntensity
import DesignTokens.Proofs.ReadingBack
import DesignTokens.Proofs.Rendering

/-!
What the rendered text tells about the declarations: everything but the raw names they were made
from. Each block of lines shows where it ends, so the lines are taken apart from the front, and
within a line a name or a number ends before the next character that cannot stand in it.
-/
namespace DesignTokens.Swift

def ColourConstant.withoutSource (c : ColourConstant) : ColourConstant := { c with source := "" }

def ColourGroup.withoutSources (g : ColourGroup) : ColourGroup :=
  ⟨g.name, "", g.constants.map ColourConstant.withoutSource⟩

def SizeConstant.withoutSource (c : SizeConstant) : SizeConstant := { c with source := "" }

def SizeGroup.withoutSources (g : SizeGroup) : SizeGroup :=
  ⟨g.name, g.constants.map SizeConstant.withoutSource⟩

/-- The declarations with every raw name left out. -/
def Declarations.withoutSources (d : Declarations) : Declarations :=
  ⟨d.colours, d.groups.map ColourGroup.withoutSources, d.spacing.withoutSources,
    d.radius.withoutSources⟩

def SizeGroup.Finite (g : SizeGroup) : Prop := ∀ c ∈ g.constants, c.value.isFinite

instance (g : SizeGroup) : Decidable g.Finite := List.decidableBAll _ g.constants

def Declarations.Finite (d : Declarations) : Prop := ∀ g ∈ [d.spacing, d.radius], g.Finite

instance (d : Declarations) : Decidable d.Finite := List.decidableBAll _ [d.spacing, d.radius]

section Unsourced

theorem groupLines_withoutSources (g : ColourGroup) :
    groupLines g.withoutSources = groupLines g := by
  have same : colourLines ∘ ColourConstant.withoutSource = colourLines := rfl
  rw [groupLines, ColourGroup.withoutSources, List.map_map, same]
  rfl

theorem sizeGroupLines_withoutSources (g : SizeGroup) :
    sizeGroupLines g.withoutSources = sizeGroupLines g := by
  have same : sizeLines ∘ SizeConstant.withoutSource = sizeLines := rfl
  rw [sizeGroupLines, SizeGroup.withoutSources, List.map_map, same]
  rfl

theorem render_withoutSources (d : Declarations) : render d.withoutSources = render d := by
  have same : groupLines ∘ ColourGroup.withoutSources = groupLines :=
    funext groupLines_withoutSources
  rw [render, render, lines, lines, Declarations.withoutSources, List.map_map, same,
    sizeGroupLines_withoutSources, sizeGroupLines_withoutSources]

end Unsourced

section Numbers

theorem literal_injective {x y : Binary64} (hx : x.isFinite) (hy : y.isFinite)
    (same : literal x = literal y) : x = y :=
  Binary64.write_injective literalLayout hx hy (String.ofList_injective same)

theorem not_mem_literal {c : Char} (h : Binary64.isNumberChar c = false) (x : Binary64) :
    c ∉ (literal x).toList := by
  intro hc
  have number := numberText_literal x c hc
  rw [h] at number
  cases number

theorem channel_injective {a b : UInt8} (same : channel a = channel b) : a = b :=
  Colour.intensity_injective
    (literal_injective (Colour.isFinite_intensity a) (Colour.isFinite_intensity b) same)

end Numbers

section Lines

/-- Where the text behind a hole begins with a character that cannot fill it, the hole ends. -/
theorem hole_append_inj {sep : Char} {a b after rest rest' : String} (ha : sep ∉ a.toList)
    (hb : sep ∉ b.toList) (begins : after.toList.head? = some sep)
    (same : a ++ (after ++ rest) = b ++ (after ++ rest')) : a = b ∧ rest = rest' := by
  obtain ⟨behind, spelled⟩ := List.head?_eq_some_iff.1 begins
  have texts := congrArg String.toList same
  simp only [String.toList_append, spelled, List.cons_append] at texts
  obtain ⟨holes, rests⟩ := Text.append_sep_inj ha hb texts
  exact ⟨String.toList_inj.1 holes, String.toList_inj.1 (List.append_cancel_left rests)⟩

theorem channel_append_inj {a b : UInt8} {after rest rest' : String}
    (begins : after.toList.head? = some ',')
    (same : channel a ++ (after ++ rest) = channel b ++ (after ++ rest')) :
    a = b ∧ rest = rest' := by
  have comma : Binary64.isNumberChar ',' = false := by decide
  obtain ⟨texts, rests⟩ :=
    hole_append_inj (not_mem_literal comma _) (not_mem_literal comma _) begins same
  exact ⟨channel_injective texts, rests⟩

theorem colourLiteral_injective {c c' : Colour} (same : colourLiteral c = colourLiteral c') :
    c = c' := by
  unfold colourLiteral at same
  simp only [String.append_assoc, String.append_right_inj] at same
  obtain ⟨reds, same⟩ := channel_append_inj (by decide) same
  obtain ⟨greens, same⟩ := channel_append_inj (by decide) same
  obtain ⟨blues, same⟩ := channel_append_inj (by decide) same
  have alphas := channel_injective (String.append_left_inj ")" |>.1 same)
  rw [Colour.mk.injEq]
  exact ⟨reds, greens, blues, alphas⟩

/-- A checked name ends at the first blank. -/
theorem blank_not_mem_of_isIdentifier {name : String} (h : isIdentifier (unquote name)) :
    ' ' ∉ name.toList := by
  intro hc
  exact absurd (isNameChar_of_mem h hc) (by decide)

/-- What fills a hole of a line can be told from the line. -/
theorem hole_inj {before after a b : String} (h : before ++ a ++ after = before ++ b ++ after) :
    a = b :=
  String.append_right_inj before |>.1 (String.append_left_inj after |>.1 h)

theorem filled_ne {before last : String} (apart : ¬ before.toList <+: last.toList)
    (hole after : String) : before ++ hole ++ after ≠ last := by
  rintro rfl
  rw [String.append_assoc, String.toList_append] at apart
  exact apart (List.prefix_append _ _)

end Lines

/-- Blocks of lines from which `shown` can be told, and where they end, whatever follows. -/
def Telling {α β : Type} (checked : α → Prop) (block : α → List String) (shown : α → β) : Prop :=
  ∀ {a b : α} {rest rest' : List String}, checked a → checked b →
    block a ++ rest = block b ++ rest' → shown a = shown b ∧ rest = rest'

section Blocks
variable {α β : Type} {checked : α → Prop} {block : α → List String} {shown : α → β}

/-- While blocks go on an empty line comes next, and the line behind them is not empty. -/
theorem Telling.following (h : Telling checked block shown) {last : String} (hlast : last ≠ "")
    {as bs : List α} {rest rest' : List String} (has : ∀ a ∈ as, checked a)
    (hbs : ∀ b ∈ bs, checked b)
    (same : (as.map block).flatMap (fun b => "" :: b) ++ last :: rest =
      (bs.map block).flatMap (fun b => "" :: b) ++ last :: rest') :
    as.map shown = bs.map shown ∧ rest = rest' := by
  induction as generalizing bs with
  | nil =>
      cases bs with
      | nil => exact ⟨rfl, (List.cons.inj same).2⟩
      | cons b bs => exact absurd (List.cons.inj same).1 hlast
  | cons a as ih =>
      cases bs with
      | nil => exact absurd (List.cons.inj same).1.symm hlast
      | cons b bs =>
          obtain ⟨ha, has⟩ := List.forall_mem_cons.1 has
          obtain ⟨hb, hbs⟩ := List.forall_mem_cons.1 hbs
          simp only [List.map_cons, List.flatMap_cons, List.cons_append, List.append_assoc,
            List.cons.injEq, true_and] at same
          obtain ⟨first, same⟩ := h ha hb same
          obtain ⟨others, rests⟩ := ih has hbs same
          exact ⟨congrArg₂ List.cons first others, rests⟩

/-- Blocks up to a line with which none of them begins can be told apart. -/
theorem Telling.spaced (h : Telling checked block shown) {last : String} (hlast : last ≠ "")
    (begins : ∀ a rest rest', block a ++ rest ≠ last :: rest') {as bs : List α}
    {rest rest' : List String} (has : ∀ a ∈ as, checked a) (hbs : ∀ b ∈ bs, checked b)
    (same : Swift.spaced (as.map block) ++ last :: rest =
      Swift.spaced (bs.map block) ++ last :: rest') :
    as.map shown = bs.map shown ∧ rest = rest' := by
  cases as with
  | nil =>
      cases bs with
      | nil => exact ⟨rfl, (List.cons.inj same).2⟩
      | cons b bs =>
          rw [List.map_cons, spaced_cons, List.append_assoc] at same
          exact absurd same.symm (begins _ _ _)
  | cons a as =>
      cases bs with
      | nil =>
          rw [List.map_cons, spaced_cons, List.append_assoc] at same
          exact absurd same (begins _ _ _)
      | cons b bs =>
          obtain ⟨ha, has⟩ := List.forall_mem_cons.1 has
          obtain ⟨hb, hbs⟩ := List.forall_mem_cons.1 hbs
          simp only [List.map_cons, spaced_cons, List.append_assoc] at same
          obtain ⟨first, same⟩ := h ha hb same
          obtain ⟨others, rests⟩ := h.following hlast has hbs same
          exact ⟨congrArg₂ List.cons first others, rests⟩

end Blocks

section Printer

theorem telling_colourLines :
    Telling (fun _ => True) colourLines ColourConstant.withoutSource := by
  intro a b rest rest' _ _ same
  simp only [colourLines, List.cons_append, List.nil_append, List.cons.injEq, true_and] at same
  obtain ⟨names, lights, darks, rests⟩ := same
  have lights := colourLiteral_injective (String.append_right_inj _ |>.1 lights)
  have darks := colourLiteral_injective (String.append_right_inj _ |>.1 darks)
  refine ⟨?_, rests⟩
  rw [ColourConstant.withoutSource, ColourConstant.withoutSource, hole_inj names, lights, darks]

theorem telling_groupLines : Telling (fun _ => True) groupLines ColourGroup.withoutSources := by
  intro a b rest rest' _ _ same
  simp only [groupLines, List.cons_append, List.nil_append, List.append_assoc, List.cons.injEq]
    at same
  obtain ⟨names, same⟩ := same
  have begins (c : ColourConstant) (rest rest' : List String) :
      colourLines c ++ rest ≠ "    \x7d" :: rest' :=
    fun h => filled_ne (by decide) _ _ (List.cons.inj h).1
  obtain ⟨constants, rests⟩ := telling_colourLines.spaced (by decide) begins
    (fun _ _ => trivial) (fun _ _ => trivial) same
  refine ⟨?_, rests⟩
  rw [ColourGroup.withoutSources, ColourGroup.withoutSources, hole_inj names, constants]

def SizeConstant.Checked (c : SizeConstant) : Prop :=
  isIdentifier (unquote c.name) ∧ c.value.isFinite

theorem telling_sizeLines :
    Telling SizeConstant.Checked sizeLines SizeConstant.withoutSource := by
  intro a b rest rest' ha hb same
  simp only [sizeLines, List.cons_append, List.nil_append, List.cons.injEq] at same
  -- the comment is left aside: the literal alone tells the value
  obtain ⟨-, line, rests⟩ := same
  simp only [String.append_assoc, String.append_right_inj] at line
  obtain ⟨names, line⟩ := hole_append_inj (blank_not_mem_of_isIdentifier ha.1)
    (blank_not_mem_of_isIdentifier hb.1) (by decide) line
  have values := literal_injective ha.2 hb.2 (String.append_left_inj ")" |>.1 line)
  refine ⟨?_, rests⟩
  rw [SizeConstant.withoutSource, SizeConstant.withoutSource, names, values]

def SizeGroup.Checked (g : SizeGroup) : Prop := ∀ c ∈ g.constants, c.Checked

theorem telling_sizeGroupLines :
    Telling SizeGroup.Checked sizeGroupLines SizeGroup.withoutSources := by
  intro a b rest rest' ha hb same
  simp only [sizeGroupLines, List.cons_append, List.nil_append, List.append_assoc,
    List.cons.injEq] at same
  obtain ⟨names, same⟩ := same
  have begins (c : SizeConstant) (rest rest' : List String) :
      sizeLines c ++ rest ≠ "\x7d" :: rest' :=
    fun h => filled_ne (by decide) _ _ (List.cons.inj h).1
  obtain ⟨constants, rests⟩ := telling_sizeLines.spaced (by decide) begins ha hb same
  refine ⟨?_, rests⟩
  rw [SizeGroup.withoutSources, SizeGroup.withoutSources, hole_inj names, constants]

theorem sizeGroups_checked {d : Declarations} (valid : d.validate = .ok ()) (finite : d.Finite) :
    d.spacing.Checked ∧ d.radius.Checked := by
  have checked {g : SizeGroup} (hg : g ∈ [d.spacing, d.radius]) : g.Checked := by
    intro c hc
    exact ⟨(Declarations.declares_size valid hg hc).2, finite g hg c hc⟩
  exact ⟨checked List.mem_cons_self, checked (List.mem_cons_of_mem _ List.mem_cons_self)⟩

theorem withoutSources_eq_of_lines_eq {d e : Declarations} (hd : d.spacing.Checked)
    (hd' : d.radius.Checked) (he : e.spacing.Checked) (he' : e.radius.Checked)
    (same : lines d = lines e) : d.withoutSources = e.withoutSources := by
  simp only [lines, List.append_assoc, List.cons_append, List.append_cancel_left_eq,
    List.cons.injEq] at same
  obtain ⟨names, same⟩ := same
  have begins (g : ColourGroup) (rest rest' : List String) :
      groupLines g ++ rest ≠ "\x7d" :: rest' :=
    fun h => filled_ne (by decide) _ _ (List.cons.inj h).1
  obtain ⟨groups, same⟩ := telling_groupLines.spaced (by decide) begins
    (fun _ _ => trivial) (fun _ _ => trivial) same
  obtain ⟨spacings, same⟩ := telling_sizeGroupLines hd he (List.cons.inj same).2
  have nothing (g : SizeGroup) : sizeGroupLines g = sizeGroupLines g ++ [] :=
    (List.append_nil _).symm
  rw [nothing d.radius, nothing e.radius] at same
  obtain ⟨radii, -⟩ := telling_sizeGroupLines hd' he' (List.cons.inj same).2
  rw [Declarations.withoutSources, Declarations.withoutSources, hole_inj names, groups, spacings,
    radii]

theorem lines_eq_of_render_eq {d e : Declarations} (valid : d.validate = .ok ())
    (valid' : e.validate = .ok ()) (same : render d = render e) : lines d = lines e := by
  have pieces := pieces_render valid
  rw [same, pieces_render valid'] at pieces
  have texts := List.append_cancel_right pieces
  have injective : Function.Injective String.toList := fun _ _ => String.toList_inj.1
  exact (List.map_injective_iff.2 injective texts).symm

end Printer

/-- The text of checked declarations with finite sizes determines them, raw names apart. -/
theorem render_eq_render_iff {d e : Declarations} (valid : d.validate = .ok ())
    (valid' : e.validate = .ok ()) (finite : d.Finite) (finite' : e.Finite) :
    render d = render e ↔ d.withoutSources = e.withoutSources := by
  constructor
  · intro same
    obtain ⟨spacing, radius⟩ := sizeGroups_checked valid finite
    obtain ⟨spacing', radius'⟩ := sizeGroups_checked valid' finite'
    exact withoutSources_eq_of_lines_eq spacing radius spacing' radius'
      (lines_eq_of_render_eq valid valid' same)
  · intro same
    rw [← render_withoutSources d, same, render_withoutSources]

/-- Declarations of one colour and one size. -/
def gapAndColour (source : String) (gap : Binary64) : Declarations where
  colours := "TokenColors"
  groups := [⟨"Nav", "nav", [⟨"\x60class\x60", source, .ofRGB 0 0 0, .ofRGB 9 9 9⟩]⟩]
  spacing := ⟨"TokenSpacing", [⟨"gap", "gap", gap⟩]⟩
  radius := ⟨"TokenRadius", []⟩

/-- A raw name leaves no trace in the text, but the sign of a zero does. -/
theorem render_eq_render_iff_signed_zero :
    render (gapAndColour "class" .zero) = render (gapAndColour "CLASS" .zero) ∧
      render (gapAndColour "class" .zero) ≠
        render (gapAndColour "class" (.ofMagnitudeBits true 0)) := by
  have valid : (gapAndColour "class" .zero).validate = .ok () := by decide +kernel
  have renamed : (gapAndColour "CLASS" .zero).validate = .ok () := by decide +kernel
  have negated : (gapAndColour "class" (.ofMagnitudeBits true 0)).validate = .ok () := by
    decide +kernel
  constructor
  · exact (render_eq_render_iff valid renamed (by decide) (by decide)).2 rfl
  · intro same
    have told := (render_eq_render_iff valid negated (by decide) (by decide)).1 same
    exact absurd told (by decide)

end DesignTokens.Swift
