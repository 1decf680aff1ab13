import DesignTokens.Config.Basic
import DesignTokens.Yaml.Scalar

/-!
Writing a configuration as YAML text, every key of it in a fixed order and two columns further in
than its group. Reading the text gives the configuration back.
-/
namespace DesignTokens.Config

/-- The groups of keys with the texts that stand under them. -/
def groups (c : Config) : List (String × List (String × String)) := [
  ("core", [
    ("section", c.core.top),
    ("colors", c.core.colours),
    ("spacing", c.core.spacing),
    ("radius", c.core.radius)]),
  ("semantic", [
    ("light", c.themes.light),
    ("dark", c.themes.dark)]),
  ("naming", [
    ("color_prefix", c.starts.colour),
    ("spacing_prefix", c.starts.spacing),
    ("radius_prefix", c.starts.radius)]),
  ("output", [
    ("colors", c.output.colours),
    ("spacing", c.output.spacing),
    ("radius", c.output.radius)])]

def writeMember (member : String × String) : List Char :=
  "  ".toList ++ member.1.toList ++ ": ".toList ++ Yaml.writeScalar 4 member.2.toList

def writeGroup (group : String × List (String × String)) : List Char :=
  group.1.toList ++ ":\n".toList ++ group.2.flatMap writeMember

def writeUnits (units : List String) : List Char :=
  if units.isEmpty then "units: []\n".toList
  else "units:\n".toList ++ units.flatMap fun unit => "- ".toList ++ Yaml.writeScalar 2 unit.toList

def write (c : Config) : String :=
  String.ofList (c.groups.flatMap writeGroup ++ writeUnits c.units)

end DesignTokens.Config
