import DesignTokens.Proofs.HexText
import DesignTokens.Proofs.ThemeReading

/-!
What a themed value means when it is read off a palette whose aliases were never settled: the walk
that its reference begins is followed to a literal, and the literal is read as a colour. Settling
the aliases first, and writing an overridden colour as text only to read it again, gives the same.
-/
namespace DesignTokens

/-- The literal at the end of the walk that begins at the path `reference` names. -/
def Palette.Resolves (p : Palette) (root reference literal : String) : Prop :=
  ∃ key, Reference.key? root reference = some key ∧ p.LeadsTo root key literal

namespace Theme

/-- The text that a raw value comes down to: the literal as it is written, or the colour under an
alpha override as hexadecimal text. -/
inductive FinalText (p : Palette) (root raw : String) : String → Prop
  | plain {literal : String} (form : AlphaOverride.isForm raw = false)
      (ends : p.Resolves root raw literal) : FinalText p root raw literal
  | overridden {override : AlphaOverride} {literal : String} {colour : Colour}
      (form : AlphaOverride.isForm raw = true) (read : AlphaOverride.read raw = .ok override)
      (ends : p.Resolves root override.reference literal)
      (spelled : Colour.ofHex literal .literal = .ok colour) :
      FinalText p root raw (colour.withAlpha override.alpha).hex

/-- The colour that a raw value stands for, with no text written on the way. -/
inductive DirectColour (p : Palette) (root raw : String) : Colour → Prop
  | plain {literal : String} {colour : Colour} (form : AlphaOverride.isForm raw = false)
      (ends : p.Resolves root raw literal)
      (spelled : Colour.ofHex literal .literal = .ok colour) : DirectColour p root raw colour
  | overridden {override : AlphaOverride} {literal : String} {colour : Colour}
      (form : AlphaOverride.isForm raw = true) (read : AlphaOverride.read raw = .ok override)
      (ends : p.Resolves root override.reference literal)
      (spelled : Colour.ofHex literal .literal = .ok colour) :
      DirectColour p root raw (colour.withAlpha override.alpha)

variable {p : Palette} {root : String}

theorem literal?_settled {reference literal : String} :
    literal? (p.mapValues (p.settle root)) root reference = some literal ↔
      p.Resolves root reference literal := by
  simp only [literal?_eq_some, Palette.holdsLiteral_settled, Palette.Resolves]

theorem resolveValue_settled {token raw text : String} :
    resolveValue (p.mapValues (p.settle root)) root token raw = .ok text ↔
      FinalText p root raw text := by
  unfold resolveValue
  split
  · rename_i form
    simp only [overriddenValue_eq_ok, literal?_settled, Colour.ofHex_eq_ok]
    constructor
    · intro h
      obtain ⟨override, literal, colour, read, ends, spelled, rfl⟩ := h
      exact .overridden form read ends (Colour.ofHex_eq_ok.2 spelled)
    · intro h
      cases h with
      | plain notForm => exact absurd form (by simp [notForm])
      | overridden _ read ends spelled =>
          exact ⟨_, _, _, read, ends, Colour.ofHex_eq_ok.1 spelled, rfl⟩
  · rename_i notForm
    rw [plainValue_eq_ok, literal?_settled]
    constructor
    · exact .plain (by simpa using notForm)
    · intro h
      cases h with
      | plain _ ends => exact ends
      | overridden form => exact absurd form notForm

/-- Nothing is lost in the text: reading it gives the colour that the value stands for. -/
theorem directColour_iff {raw : String} {colour : Colour} :
    DirectColour p root raw colour ↔
      ∃ text, FinalText p root raw text ∧ Colour.ofHex text .literal = .ok colour := by
  constructor
  · intro h
    cases h with
    | plain form ends spelled => exact ⟨_, .plain form ends, spelled⟩
    | overridden form read ends spelled =>
        exact ⟨_, .overridden form read ends spelled, Colour.ofHex_hex _ _⟩
  · intro h
    obtain ⟨text, final, spelled⟩ := h
    cases final with
    | plain form ends => exact .plain form ends spelled
    | overridden form read ends literal =>
        rw [Colour.ofHex_hex] at spelled
        exact Except.ok.inj spelled ▸ .overridden form read ends literal

theorem finalText_unique {raw a b : String} (ha : FinalText p root raw a)
    (hb : FinalText p root raw b) : a = b := by
  have resolved (text : String) :
      resolveValue (p.mapValues (p.settle root)) root "" raw = .ok text ↔
        FinalText p root raw text := resolveValue_settled
  exact Except.ok.inj (((resolved a).2 ha).symm.trans ((resolved b).2 hb))

theorem directColour_unique {raw : String} {a b : Colour} (ha : DirectColour p root raw a)
    (hb : DirectColour p root raw b) : a = b := by
  obtain ⟨text, final, spelled⟩ := directColour_iff.1 ha
  obtain ⟨text', final', spelled'⟩ := directColour_iff.1 hb
  obtain rfl := finalText_unique final final'
  exact Except.ok.inj (spelled.symm.trans spelled')

end Theme

end DesignTokens
