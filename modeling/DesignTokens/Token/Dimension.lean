import DesignTokens.Binary64.Decimal
import DesignTokens.Failure
import DesignTokens.Text.Pieces

/-!
Dimensions: a finite number with at most one unit behind it. Of the units that end the text the
longest is taken off, and blanks between the number and the unit are allowed.
-/
namespace DesignTokens.Dimension

/-- The shortest text left over when one of `units` is taken off the end; empty units are none. -/
def withoutUnit (units : List (List Char)) (text : List Char) : List Char :=
  let rests := (units.filter (!·.isEmpty)).filterMap fun unit => Text.dropEnd? unit text
  rests.foldl (fun best rest => if rest.length < best.length then rest else best) text

def read (units : List String) (text : String) : Except Failure Binary64 :=
  let number := Text.trimEnd (withoutUnit (units.map String.toList) (Text.trim text.toList))
  match Binary64.readFinite? number with
  | some value => .ok value
  | none => .error (.badNumber text)

def defaultUnits : List String := ["px"]

end DesignTokens.Dimension
