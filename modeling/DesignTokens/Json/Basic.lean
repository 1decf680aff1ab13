import DesignTokens.Table

/-!
JSON values. The members of an object are kept as they are written; seen as a map, an object has
its keys in ascending order and of several members with one key the last counts. A number is kept
as its text, since no token is ever read from one.
-/
namespace DesignTokens

inductive Json where
  | null
  | bool (value : Bool)
  | number (literal : String)
  | string (text : String)
  | array (items : List Json)
  | object (members : List (String × Json))

namespace Json

instance : Inhabited Json := ⟨.null⟩

def members? : Json → Option (Table String Json)
  | .object members => some (Table.ofList members)
  | _ => none

def text? : Json → Option String
  | .string text => some text
  | _ => none

/-- The kind of a value, as error messages name it. -/
def kindPhrase : Json → String
  | .null => "null"
  | .bool _ => "a boolean"
  | .number _ => "a number"
  | .string _ => "a string"
  | .array _ => "an array"
  | .object _ => "an object"

end Json

end DesignTokens
