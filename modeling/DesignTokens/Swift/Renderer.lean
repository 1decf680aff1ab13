import DesignTokens.Binary64.Layout
import DesignTokens.Swift.Declarations

/-!
The text of the declarations, line by line. Colours become constants that choose between two
values by the user's interface style; sizes become floating-point constants. The only parts of a
line that are not fixed are declared names and numbers.
-/
namespace DesignTokens.Swift

/-- Sizes in comments are written out in full, whole numbers without a fraction. -/
def commentLayout : Binary64.Layout where
  writtenOut _ := true
  keepsFraction := false

/-- Numbers in code keep a fraction, and from 10¹⁶ on and below 10⁻⁴ they have an exponent. -/
def literalLayout : Binary64.Layout where
  writtenOut position := -3 ≤ position && position ≤ 16
  keepsFraction := true

def comment (x : Binary64) : String := String.ofList (commentLayout.write x)

def literal (x : Binary64) : String := String.ofList (literalLayout.write x)

def channel (byte : UInt8) : String := literal (Colour.intensity byte)

def header : List String := [
  "import SwiftUI",
  "",
  "public extension UIColor \x7b",
  "    var swiftUI: Color \x7b",
  "        if #available(iOS 15, *) \x7b",
  "            Color(uiColor: self)",
  "        \x7d else \x7b",
  "            Color(self)",
  "        \x7d",
  "    \x7d",
  "\x7d",
  ""]

def colourLiteral (c : Colour) : String :=
  "UIColor(red: " ++ channel c.red ++ ", green: " ++ channel c.green ++ ", blue: " ++
    channel c.blue ++ ", alpha: " ++ channel c.alpha ++ ")"

def colourLines (c : ColourConstant) : List String := [
  "        public static let " ++ c.name ++ " = UIColor(dynamicProvider: \x7b traitCollection in",
  "            return traitCollection.userInterfaceStyle == .light",
  "                ? " ++ colourLiteral c.light,
  "                : " ++ colourLiteral c.dark,
  "        \x7d)"]

/-- The lines of several blocks, with an empty line between each two. -/
def spaced : List (List String) → List String
  | [] => []
  | [block] => block
  | block :: rest => block ++ "" :: spaced rest

def groupLines (g : ColourGroup) : List String :=
  ("    public enum " ++ g.name ++ " \x7b") :: spaced (g.constants.map colourLines) ++ ["    \x7d"]

def sizeLines (c : SizeConstant) : List String := [
  "    /// " ++ comment c.value ++ "pt",
  "    public static let " ++ c.name ++ " = CGFloat(" ++ literal c.value ++ ")"]

def sizeGroupLines (g : SizeGroup) : List String :=
  ("public enum " ++ g.name ++ " \x7b") :: spaced (g.constants.map sizeLines) ++ ["\x7d"]

def lines (d : Declarations) : List String :=
  header ++ ("public enum " ++ d.colours ++ " \x7b") :: spaced (d.groups.map groupLines) ++
    "\x7d" :: "" :: sizeGroupLines d.spacing ++ "" :: sizeGroupLines d.radius

def render (d : Declarations) : String := String.join ((lines d).map (· ++ "\n"))

def fileExtension : String := "swift"

end DesignTokens.Swift
