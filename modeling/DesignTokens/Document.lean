import DesignTokens.Failure
import DesignTokens.Json.Reader

/-!
Token documents: JSON objects in which sections are found by their keys, at the top or one level
below it. A key that is missing and one that holds no object are reported alike.
-/
namespace DesignTokens

structure Document where
  root : Table String Json

namespace Document

def ofJson (value : Json) : Except Failure Document :=
  match value.members? with
  | some root => .ok ⟨root⟩
  | none => .error (.rootNotObject value.kindPhrase)

def read (source : String) : Except Failure Document :=
  match Json.read source.toList with
  | .ok value => ofJson value
  | .error fault => .error (.jsonSyntax fault.text)

def objectUnder (members : Table String Json) (key container : String) :
    Except Failure (Table String Json) :=
  match (members.find? key).bind Json.members? with
  | some object => .ok object
  | none => .error (.missingObject key container)

def object (d : Document) (key : String) : Except Failure (Table String Json) :=
  objectUnder d.root key "the token document"

def nestedObject (d : Document) (outer key : String) : Except Failure (Table String Json) := do
  let members ← d.object outer
  objectUnder members key outer

end Document

end DesignTokens
