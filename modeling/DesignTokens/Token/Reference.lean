import DesignTokens.Text.Pieces
import DesignTokens.Text.AsciiCase
import DesignTokens.Text.Lowercase

/-!
References to core tokens: a dotted path in braces. The name of the colour tree may stand in front
of the path, in any case of its ASCII letters, and is dropped; the rest in lower case is the key
under which the token is found.
-/
namespace DesignTokens.Reference

/-- The text between the braces without the blanks next to them. -/
def inner? (value : List Char) : Option (List Char) :=
  match Text.trim value with
  | '{' :: rest => (Text.dropEnd? ['}'] rest).map Text.trim
  | _ => none

/-- Drops a leading `root` when something follows it. -/
def dropRoot (root path : List Char) : List Char :=
  match Text.splitFirst '.' path with
  | some (head, rest) =>
    if Text.sameIgnoringAsciiCase head root && !rest.isEmpty then rest else path
  | none => path

def keyChars? (root value : List Char) : Option (List Char) :=
  (inner? value).bind fun path =>
    if path.isEmpty then none else some (Text.lowercase (dropRoot root path))

/-- The key that `value` refers to, if it is a reference. -/
def key? (root value : String) : Option String :=
  (keyChars? root.toList value.toList).map String.ofList

end DesignTokens.Reference
