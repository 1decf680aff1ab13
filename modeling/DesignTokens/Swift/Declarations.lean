import DesignTokens.Config.Basic
import DesignTokens.Naming.Sanitizer
import DesignTokens.Sizes
import DesignTokens.Theme.Merge

/-!
The declarations of a generated file: one group of colours for each category, in ascending order of
categories and within them of tokens, and two groups of sizes in ascending order of values. Every
declared name is kept together with the raw name it was made from.
-/
namespace DesignTokens.Swift

structure ColourConstant where
  name : String
  source : String
  light : Colour
  dark : Colour
deriving DecidableEq

structure ColourGroup where
  name : String
  source : String
  constants : List ColourConstant
deriving DecidableEq

structure SizeConstant where
  name : String
  source : String
  value : Binary64
deriving DecidableEq

structure SizeGroup where
  name : String
  constants : List SizeConstant
deriving DecidableEq

structure Declarations where
  colours : String
  groups : List ColourGroup
  spacing : SizeGroup
  radius : SizeGroup
deriving DecidableEq

namespace Declarations

def count (d : Declarations) : Nat :=
  (d.groups.flatMap fun g => g.constants).length + d.spacing.constants.length +
    d.radius.constants.length

def tokenNotAfter (a b : MergedEntry) : Bool := a.name.token ≤ b.name.token

def categoriesOf (entries : List MergedEntry) : List String :=
  (Table.ofList (entries.map fun e => (e.name.category, ()))).keys

def colourConstant (starts : NameStarts) (e : MergedEntry) : ColourConstant where
  name := Naming.colourName starts.colour e.name.category e.name.token
  source := e.name.token
  light := e.light
  dark := e.dark

def colourGroup (starts : NameStarts) (entries : List MergedEntry) (category : String) :
    ColourGroup where
  name := Naming.groupName category
  source := category
  constants :=
    ((entries.filter fun e => e.name.category = category).mergeSort tokenNotAfter).map
      (colourConstant starts)

def sizeGroup (name start : String) (sizes : List Size) : SizeGroup where
  name := name
  constants := (Size.sort sizes).map fun s => ⟨Naming.sizeName start s.name, s.name, s.value⟩

/-- The declarations before their names are checked. -/
def arrange (config : Config) (colours : List MergedEntry) (spacing radius : List Size) :
    Declarations where
  colours := config.output.colours
  groups := (categoriesOf colours).map (colourGroup config.starts colours)
  spacing := sizeGroup config.output.spacing config.starts.spacing spacing
  radius := sizeGroup config.output.radius config.starts.radius radius

end Declarations

end DesignTokens.Swift
