import DesignTokens.Colour.Hex
import DesignTokens.Palette.Alias
import DesignTokens.Token.AlphaOverride

/-!
Reading one theme. A semantic section holds categories, and a category holds tokens whose values
refer to the palette, either plainly or with an alpha override. Every token is given the literal
found there; the first one for which there is none stops the reading.
-/
namespace DesignTokens

structure ThemeEntry where
  category : String
  token : String
  leaf : Leaf
deriving DecidableEq, Repr

structure Theme where
  variant : Variant
  entries : List ThemeEntry
deriving DecidableEq, Repr

namespace Theme

def find? (t : Theme) (category token : String) : Option ThemeEntry :=
  t.entries.find? fun e => e.category = category && e.token = token

/-- The literal a palette holds under a reference, unless that is again a reference. -/
def literal? (p : Palette) (root reference : String) : Option String := do
  let key ← Reference.key? root reference
  let leaf ← p.find? key
  if (Reference.key? root leaf.value).isSome then none else return leaf.value

def plainValue (p : Palette) (root token value : String) : Except Failure String :=
  match literal? p root value with
  | some literal => .ok literal
  | none => .error (.unresolved token value)

def overriddenValue (p : Palette) (root token value : String) : Except Failure String := do
  let override ← AlphaOverride.read value
  match literal? p root override.reference with
  | none => .error (.unresolved token value)
  | some literal =>
    let colour ← Colour.ofHex literal (.underAlpha token)
    return (colour.withAlpha override.alpha).hex

def resolveValue (p : Palette) (root token value : String) : Except Failure String :=
  if AlphaOverride.isForm value then overriddenValue p root token value
  else plainValue p root token value

def readToken (p : Palette) (variant : Variant) (root category : String)
    (member : String × Json) : Except Failure ThemeEntry :=
  match Leaf.ofJson? member.2 with
  | none => .error (.themedNotLeaf variant category member.1)
  | some leaf => do
    let value ← resolveValue p root member.1 leaf.value
    return ⟨category, member.1, { leaf with value := value }⟩

def readCategory (p : Palette) (variant : Variant) (root : String)
    (member : String × Json) : Except Failure (List ThemeEntry) :=
  match member.2.members? with
  | none => .error (.categoryNotObject variant member.1 member.2.kindPhrase)
  | some tokens => tokens.entries.mapM (readToken p variant root member.1)

def read (categories : Table String Json) (p : Palette) (variant : Variant) (root : String) :
    Except Failure Theme := do
  let groups ← categories.entries.mapM (readCategory p variant root)
  return ⟨variant, groups.flatten⟩

end Theme

end DesignTokens
