import DesignTokens.Colour.Basic
import DesignTokens.Failure
import DesignTokens.Text.Blank
import DesignTokens.Text.HexDigit

/-!
Colours as hexadecimal text: two digits for each channel, the alpha channel left out when the
colour is opaque, behind a number sign. Reading also accepts white space around the text, capital
digits and a missing number sign.
-/
namespace DesignTokens.Colour

open Text (hexValue? hexDigit)

/-- The bytes spelled by pairs of digits. -/
def bytesOfDigits : List Nat → List UInt8
  | high :: low :: rest => UInt8.ofNat (16 * high + low) :: bytesOfDigits rest
  | _ => []

/-- Of two faults at once, a stray character is reported before a wrong length. -/
def ofDigits (digits : List Char) : Except HexFault Colour :=
  match digits.mapM hexValue? with
  | none => .error .strayCharacter
  | some values =>
    match values.length, bytesOfDigits values with
    | 6, [r, g, b] => .ok (ofRGB r g b)
    | 8, [r, g, b, a] => .ok ⟨r, g, b, a⟩
    | _, _ => .error .wrongLength

def hexDigits (s : String) : List Char :=
  match Text.trim s.toList with
  | '#' :: digits => digits
  | digits => digits

def ofHex (s : String) (purpose : HexUse) : Except Failure Colour :=
  match ofDigits (hexDigits s) with
  | .ok colour => .ok colour
  | .error fault => .error (.badHex s fault purpose)

def byteDigits (byte : UInt8) : List Char :=
  [hexDigit (byte.toNat / 16), hexDigit (byte.toNat % 16)]

def hex (c : Colour) : String :=
  let alpha := if c.isOpaque then [] else byteDigits c.alpha
  String.ofList ('#' :: (byteDigits c.red ++ byteDigits c.green ++ byteDigits c.blue ++ alpha))

end DesignTokens.Colour
