import DesignTokens.Document
import DesignTokens.Swift.Delimiters
import DesignTokens.Swift.Renderer
import DesignTokens.Swift.Validation

/-!
From a document to generated source: the palette is flattened and its aliases settled, both themes
are read against it and merged, the two groups of sizes are read, and what results is declared and
rendered. The first failure on the way is the answer.
-/
namespace DesignTokens

/-- All tokens of a document, resolved. -/
structure TokenSet where
  coreCount : Nat
  lightCount : Nat
  darkCount : Nat
  colours : Merged
  spacing : List Size
  radius : List Size

namespace TokenSet

def ofDocument (d : Document) (config : Config) : Except Failure TokenSet := do
  let core := config.core
  let tree ← d.nestedObject core.top core.colours
  let palette ← (Palette.flatten tree).resolveAliases core.colours
  let light ← Theme.read (← d.object config.themes.light) palette .light core.colours
  let dark ← Theme.read (← d.object config.themes.dark) palette .dark core.colours
  let merged ← light.merge dark
  let spacing ← Size.readGroup (← d.nestedObject core.top core.spacing) core.spacing config.units
  let radius ← Size.readGroup (← d.nestedObject core.top core.radius) core.radius config.units
  return {
    coreCount := palette.size
    lightCount := light.entries.length
    darkCount := dark.entries.length
    colours := merged
    spacing := spacing
    radius := radius }

/-- How many constants the tokens give rise to. -/
def constantCount (t : TokenSet) : Nat :=
  t.colours.entries.length + t.spacing.length + t.radius.length

end TokenSet

namespace Swift

/-- The text for resolved tokens; it is checked before it is given out. -/
def emit (config : Config) (colours : List MergedEntry) (spacing radius : List Size) :
    Except Failure String := do
  let declarations ← Declarations.build config colours spacing radius
  let text := render declarations
  checkDelimiters text
  return text

end Swift

structure Compiled where
  tokens : TokenSet
  text : String

def compile (source : String) (config : Config) : Except Failure Compiled := do
  let document ← Document.read source
  let tokens ← TokenSet.ofDocument document config
  let text ← Swift.emit config tokens.colours.entries tokens.spacing tokens.radius
  return ⟨tokens, text⟩

end DesignTokens
