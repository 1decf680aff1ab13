import DesignTokens.Json.Basic

/-!
Token leaves. An object is a leaf when it gives a kind and a value as strings, each under its plain
name or the same name behind a dollar sign; the plain name is looked at first, and passed over when
it holds something else than a string.
-/
namespace DesignTokens

/-- A token as written: `kind` is informational, `value` is a literal or refers to other tokens. -/
structure Leaf where
  kind : String
  value : String
deriving DecidableEq, Repr, Inhabited

namespace Leaf

def kindNames : List String := ["type", "$type"]

def valueNames : List String := ["value", "$value"]

def textUnder? (members : Table String Json) (names : List String) : Option String :=
  names.findSome? fun name => (members.find? name).bind Json.text?

def ofMembers? (members : Table String Json) : Option Leaf := do
  let kind ← textUnder? members kindNames
  let value ← textUnder? members valueNames
  return ⟨kind, value⟩

def ofJson? (node : Json) : Option Leaf := node.members?.bind ofMembers?

end Leaf

end DesignTokens
