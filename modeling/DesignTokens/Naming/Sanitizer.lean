import DesignTokens.Naming.Category
import DesignTokens.Naming.WordCase
import DesignTokens.Swift.Identifier

/-!
The declared names that raw token names turn into. A configured beginning is dropped, for a colour
also the name of its category, hyphens separate words, and the words are joined in camel case; a
size named by a whole number keeps it behind an underscore. Reserved words are escaped.
-/
namespace DesignTokens.Naming

/-- Non-empty and made of the digits 0 to 9 only. -/
def isNumeric (name : String) : Bool := !name.isEmpty && name.toList.all Char.isDigit

def withoutStart (start name : List Char) : List Char := (Text.dropStart? start name).getD name

def hyphensToSpaces (name : List Char) : List Char := name.map fun c => if c = '-' then ' ' else c

def groupName (category : String) : String :=
  Swift.escape (String.ofList (pascalCase category.toList))

def colourName (start category token : String) : String :=
  let name := removeCategory (withoutStart start.toList token.toList) category.toList
  Swift.escape (String.ofList (camelCase (hyphensToSpaces name)))

def sizeName (start token : String) : String :=
  if isNumeric token then "_" ++ token
  else
    let name := withoutStart start.toList token.toList
    Swift.escape (String.ofList (camelCase (hyphensToSpaces name)))

end DesignTokens.Naming
