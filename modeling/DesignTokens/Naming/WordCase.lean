import DesignTokens.Text.CaseMap
import DesignTokens.Text.Pieces

/-!
Joining words into one name. In Pascal case every word has a capital first letter and small letters
behind it; camel case begins with a small letter. Characters are mapped one by one, so a letter may
turn into several characters.
-/
namespace DesignTokens.Naming

def capitalize : List Char → List Char
  | [] => []
  | c :: rest => Text.upperChar c ++ rest.flatMap Text.lowerChar

def pascalCase (cs : List Char) : List Char := (Text.words cs).flatMap capitalize

def uncapitalize : List Char → List Char
  | [] => []
  | c :: rest => Text.lowerChar c ++ rest

def camelCase (cs : List Char) : List Char := uncapitalize (pascalCase cs)

end DesignTokens.Naming
