/-!
The two renderings of a theme.
-/
namespace DesignTokens

inductive Variant where
  | light
  | dark
deriving DecidableEq, Repr

def Variant.name : Variant → String
  | .light => "light"
  | .dark => "dark"

end DesignTokens
