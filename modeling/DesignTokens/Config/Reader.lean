import DesignTokens.Config.Basic
import DesignTokens.Failure
import DesignTokens.Yaml.Node

/-!
Reading a configuration from YAML text. What the text does not mention keeps its default, and keys
without a meaning are passed over whatever they hold. A text may be any scalar, which stands for
itself however it is spelled; a group or a list may also be left empty.
-/
namespace DesignTokens.Config

open Yaml (Node)

/-- Why YAML text is no configuration. -/
inductive Misfit where
  | notYaml (fault : Yaml.Fault)
  | notText
  | notList
  | notGroup
  | repeatedKey (key : String)
deriving DecidableEq, Repr

def Misfit.text : Misfit → String
  | .notYaml fault => fault.text
  | .notText => "expected a string"
  | .notList => "expected a sequence"
  | .notGroup => "expected a mapping"
  | .repeatedKey key => "duplicate key " ++ quoteText key

/-- What an alias stands for, and every other node itself. -/
def target (root node : Node) : Node :=
  match node with
  | .aliasOf label => (root.find? label).getD node
  | _ => node

def readText (root node : Node) : Except Misfit String :=
  match target root node with
  | .scalar _ _ text => .ok (String.ofList text)
  | _ => .error .notText

def readTexts (root node : Node) : Except Misfit (List String) :=
  match target root node with
  | .sequence _ items => items.mapM (readText root)
  | .scalar _ true [] => .ok []
  | _ => .error .notList

/-- The members whose keys are among `keys`; each of them may be there once. -/
def readMembers (root : Node) (keys : List String) (node : Node) :
    Except Misfit (List (String × Node)) :=
  match target root node with
  | .mapping _ members =>
    members.foldlM (fun found (key, value) => do
      let key ← readText root key
      if !keys.contains key then return found
      else if (found.lookup key).isSome then throw (.repeatedKey key)
      else return found ++ [(key, value)]) []
  | .scalar _ true [] => .ok []
  | _ => .error .notGroup

def textUnder (root : Node) (members : List (String × Node)) (key fallback : String) :
    Except Misfit String :=
  match members.lookup key with
  | some node => readText root node
  | none => .ok fallback

def groupUnder (root : Node) (members : List (String × Node)) (key : String)
    (keys : List String) : Except Misfit (List (String × Node)) :=
  match members.lookup key with
  | some node => readMembers root keys node
  | none => .ok []

def readCore (root : Node) (members : List (String × Node)) : Except Misfit CoreKeys := do
  let core ← groupUnder root members "core" ["section", "colors", "spacing", "radius"]
  let d : CoreKeys := {}
  return {
    top := ← textUnder root core "section" d.top
    colours := ← textUnder root core "colors" d.colours
    spacing := ← textUnder root core "spacing" d.spacing
    radius := ← textUnder root core "radius" d.radius }

def readThemes (root : Node) (members : List (String × Node)) : Except Misfit ThemeKeys := do
  let themes ← groupUnder root members "semantic" ["light", "dark"]
  let d : ThemeKeys := {}
  return {
    light := ← textUnder root themes "light" d.light
    dark := ← textUnder root themes "dark" d.dark }

def readStarts (root : Node) (members : List (String × Node)) : Except Misfit NameStarts := do
  let starts ←
    groupUnder root members "naming" ["color_prefix", "spacing_prefix", "radius_prefix"]
  let d : NameStarts := {}
  return {
    colour := ← textUnder root starts "color_prefix" d.colour
    spacing := ← textUnder root starts "spacing_prefix" d.spacing
    radius := ← textUnder root starts "radius_prefix" d.radius }

def readOutput (root : Node) (members : List (String × Node)) : Except Misfit OutputNames := do
  let output ← groupUnder root members "output" ["colors", "spacing", "radius"]
  let d : OutputNames := {}
  return {
    colours := ← textUnder root output "colors" d.colours
    spacing := ← textUnder root output "spacing" d.spacing
    radius := ← textUnder root output "radius" d.radius }

def readUnits (root : Node) (members : List (String × Node)) : Except Misfit (List String) :=
  match members.lookup "units" with
  | some node => readTexts root node
  | none => .ok []

def ofNode (root : Node) : Except Misfit Config := do
  let members ← readMembers root ["core", "semantic", "naming", "output", "units"] root
  return {
    core := ← readCore root members
    themes := ← readThemes root members
    starts := ← readStarts root members
    output := ← readOutput root members
    units := ← readUnits root members }

def ofText (source : String) : Except Misfit Config :=
  match Yaml.read source.toList with
  | .ok (some root) => ofNode root
  | .ok none => .ok {}
  | .error fault => .error (.notYaml fault)

def read (source : String) : Except Failure Config :=
  match ofText source with
  | .ok config => .ok config.completed
  | .error misfit => .error (.configSyntax misfit.text)

end DesignTokens.Config
