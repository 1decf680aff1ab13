import DesignTokens.Token.Dimension

/-!
The configuration: under which keys a document keeps its tokens, which beginnings are dropped from
token names, how the generated groups are named and which units a size may have.
-/
namespace DesignTokens

/-- Keys of the core tokens; that of the colours is also the name references may begin with. -/
structure CoreKeys where
  top : String := "Core/Main"
  colours : String := "Colors"
  spacing : String := "Spacing"
  radius : String := "Radius"
deriving DecidableEq, Repr, Inhabited

structure ThemeKeys where
  light : String := "Semantic tokens/Light"
  dark : String := "Semantic tokens/Dark"
deriving DecidableEq, Repr, Inhabited

/-- Beginnings of token names that are dropped. -/
structure NameStarts where
  colour : String := "--color-"
  spacing : String := "--spacing-"
  radius : String := "--border-radius-"
deriving DecidableEq, Repr, Inhabited

structure OutputNames where
  colours : String := "TokenColors"
  spacing : String := "TokenSpacing"
  radius : String := "TokenRadius"
deriving DecidableEq, Repr, Inhabited

structure Config where
  core : CoreKeys := {}
  themes : ThemeKeys := {}
  starts : NameStarts := {}
  output : OutputNames := {}
  units : List String := []
deriving DecidableEq, Repr, Inhabited

namespace Config

/-- An empty list of units stands for the default ones. -/
def completed (c : Config) : Config :=
  if c.units.isEmpty then { c with units := Dimension.defaultUnits } else c

def default : Config := completed {}

end Config

end DesignTokens
