import DesignTokens.Swift.Declarations

/-!
Checking declared names scope by scope: the three names at the top level, the groups of colours,
the colours of each group, the spacings and the radii. Without its backticks a name has to be an
identifier and differ from the names before it in its scope; the first name that fails is reported.
-/
namespace DesignTokens.Swift

/-- A declared name, and the raw name it was made from. -/
structure Named where
  name : String
  source : String
deriving DecidableEq

structure Scope where
  title : String
  names : List Named
deriving DecidableEq

namespace Scope

/-- Checks names in order; `seen` are those before them, without backticks. -/
def checkNames (title : String) (seen : List String) : List Named → Except Failure Unit
  | [] => .ok ()
  | n :: rest =>
    let bare := unquote n.name
    if !isIdentifier bare then .error (.invalidName n.name title n.source)
    else if bare ∈ seen then .error (.duplicateName n.name title n.source)
    else checkNames title (bare :: seen) rest

def check (s : Scope) : Except Failure Unit := checkNames s.title [] s.names

end Scope

namespace Declarations

def topLevel (d : Declarations) : Scope where
  title := "the top level"
  names := [d.colours, d.spacing.name, d.radius.name].map fun name => ⟨name, name⟩

def groupScope (d : Declarations) : Scope where
  title := d.colours
  names := d.groups.map fun g => ⟨g.name, g.source⟩

def colourScope (g : ColourGroup) : Scope where
  title := g.source
  names := g.constants.map fun c => ⟨c.name, c.source⟩

def sizeScope (g : SizeGroup) : Scope where
  title := g.name
  names := g.constants.map fun c => ⟨c.name, c.source⟩

def scopes (d : Declarations) : List Scope :=
  [d.topLevel, d.groupScope] ++ d.groups.map colourScope ++
    [sizeScope d.spacing, sizeScope d.radius]

def validate (d : Declarations) : Except Failure Unit := d.scopes.forM Scope.check

def build (config : Config) (colours : List MergedEntry) (spacing radius : List Size) :
    Except Failure Declarations := do
  let declarations := arrange config colours spacing radius
  declarations.validate
  return declarations

end Declarations

end DesignTokens.Swift
