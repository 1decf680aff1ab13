import DesignTokens.Text.AsciiCase

/-!
Taking the name of its category out of the name of a token: every occurrence, in any case of its
ASCII letters, from the left and without overlaps. A name that is nothing but its category stays.
-/
namespace DesignTokens.Naming

/-- Copies the text without the occurrences of `category`; the first `skip` characters belong to an
occurrence that has already begun. -/
def copyWithout (category : List Char) (skip : Nat) : List Char → List Char
  | [] => []
  | c :: rest =>
    match skip with
    | skip + 1 => copyWithout category skip rest
    | 0 =>
      if (Text.dropStartIgnoringAsciiCase? category (c :: rest)).isSome then
        copyWithout category (category.length - 1) rest
      else c :: copyWithout category 0 rest

def removeCategory (name category : List Char) : List Char :=
  if category.isEmpty || Text.sameIgnoringAsciiCase name category then name
  else copyWithout category 0 name

end DesignTokens.Naming
