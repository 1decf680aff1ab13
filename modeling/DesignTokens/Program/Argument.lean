import DesignTokens.Failure
import DesignTokens.Path
import DesignTokens.Text.Pieces

/-!
The two arguments that name files. The input is one document, either by itself or as the only
member of a bracketed list, the form in which build tools hand over their inputs. Its extension and
that of the output are fixed.
-/
namespace DesignTokens.Program

/-- A text without the brackets around it, if it has both. -/
def unbracket (cs : List Char) : List Char :=
  match Text.dropStart? ['['] cs with
  | some rest => (Text.dropEnd? [']'] rest).getD cs
  | none => cs

/-- The members of a list of inputs; blank ones do not count. -/
def inputPaths (argument : String) : List (List Char) :=
  let members := Text.pieces (· = ',') (unbracket (Text.trim argument.toList))
  (members.map Text.trim).filter (!·.isEmpty)

def inputPath (argument : String) : Except Failure String :=
  match inputPaths argument with
  | [path] =>
    let path := String.ofList path
    if Path.hasExtension path "json" then .ok path else .error (.inputExtension path)
  | paths => .error (.inputCount paths.length)

def checkExtension (path expected : String) : Except Failure Unit :=
  if Path.hasExtension path expected then .ok () else .error (.outputExtension path expected)

end DesignTokens.Program
