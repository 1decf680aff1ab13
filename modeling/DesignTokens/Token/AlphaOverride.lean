import DesignTokens.Binary64.Decimal
import DesignTokens.Failure
import DesignTokens.Text.Pieces

/-!
Alpha overrides: the word `rgba` in any case and, in parentheses, a reference and a number for the
alpha channel. The last comma separates the two, so the reference may hold commas itself.
-/
namespace DesignTokens

/-- The reference is still in its braces, and the number may lie outside the range of alpha. -/
structure AlphaOverride where
  reference : String
  alpha : Binary64
deriving DecidableEq

namespace AlphaOverride

def keyword : List Char := "rgba".toList

/-- Whether a value has to be read as an alpha override. -/
def isForm (value : String) : Bool :=
  (Text.dropStartIgnoringAsciiCase? keyword (Text.trimStart value.toList)).isSome

/-- The text between the parentheses. -/
def arguments? (value : List Char) : Option (List Char) :=
  match (Text.dropStartIgnoringAsciiCase? keyword (Text.trim value)).map Text.trimStart with
  | some ('(' :: rest) => Text.dropEnd? [')'] rest
  | _ => none

/-- The trimmed texts of a reference and a number, if there is a reference at all. -/
def parts? (value : List Char) : Option (List Char × List Char) := do
  let arguments ← arguments? value
  let (reference, alpha) ← Text.splitLast ',' arguments
  let reference := Text.trim reference
  if reference.isEmpty then none else return (reference, Text.trim alpha)

def read (value : String) : Except Failure AlphaOverride :=
  match parts? value.toList with
  | none => .error (.malformedAlpha value)
  | some (reference, alpha) =>
    match Binary64.readFinite? alpha with
    | some alpha => .ok ⟨String.ofList reference, alpha⟩
    | none => .error (.badNumber (String.ofList alpha))

end AlphaOverride

end DesignTokens
