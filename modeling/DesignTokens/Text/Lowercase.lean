import DesignTokens.Text.CaseMap
import DesignTokens.Text.Cased

/-!
Lower case of a whole text. Every character is mapped on its own, with one exception: the capital
sigma becomes the final form of the small letter where a word ends, that is, behind a cased
character and not before one. Characters that case ignores are passed over on both sides.
-/
namespace DesignTokens.Text

def capitalSigma : Char := 'Σ'

/-- Whether the first character that case does not ignore has case. -/
def meetsCased (cs : List Char) : Bool :=
  match cs.dropWhile isCaseIgnorable with
  | [] => false
  | c :: _ => isCased c

def smallSigma (before after : List Char) : Char :=
  if meetsCased before && !meetsCased after then 'ς' else 'σ'

/-- Lower case of `cs` behind the characters `before`, which come nearest first. -/
def lowercaseAfter (before : List Char) : List Char → List Char
  | [] => []
  | c :: rest =>
    let image := if c = capitalSigma then [smallSigma before rest] else lowerChar c
    image ++ lowercaseAfter (c :: before) rest

def lowercase (cs : List Char) : List Char := lowercaseAfter [] cs

end DesignTokens.Text

namespace DesignTokens

def lowercase (s : String) : String := String.ofList (Text.lowercase s.toList)

end DesignTokens
