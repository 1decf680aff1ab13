import DesignTokens.Json.Basic
import DesignTokens.Text.HexDigit

/-!
JSON strings, read from behind the opening quote. Characters above the ASCII range may be escaped
by their UTF-16 units, but only as whole characters: half of a surrogate pair is refused, and so is
a control character that is not escaped.
-/
namespace DesignTokens.Json

open Text (hexValue?)

inductive SyntaxFault where
  | endOfText
  | unexpected (c : Char)
  | controlCharacter
  | badEscape
  | loneSurrogate
  | badNumber
  | numberOutOfRange
  | tooDeep
  | trailing
deriving DecidableEq, Repr

def SyntaxFault.text : SyntaxFault → String
  | .endOfText => "unexpected end of text"
  | .unexpected c => "unexpected character " ++ String.singleton c
  | .controlCharacter => "control character in a string"
  | .badEscape => "invalid escape"
  | .loneSurrogate => "lone surrogate in an escape"
  | .badNumber => "invalid number"
  | .numberOutOfRange => "number out of range"
  | .tooDeep => "nesting too deep"
  | .trailing => "trailing characters"

/-- What a step of reading gives: a value and the text behind it. -/
abbrev Step (α : Type) := Except SyntaxFault (α × List Char)

def unitValue? (a b c d : Char) : Option Nat := do
  let a ← hexValue? a
  let b ← hexValue? b
  let c ← hexValue? c
  let d ← hexValue? d
  return ((a * 16 + b) * 16 + c) * 16 + d

def isHighSurrogate (unit : Nat) : Bool := 0xd800 ≤ unit && unit < 0xdc00

def isLowSurrogate (unit : Nat) : Bool := 0xdc00 ≤ unit && unit < 0xe000

def pairedChar (high low : Nat) : Char :=
  Char.ofNat (0x10000 + (high - 0xd800) * 0x400 + (low - 0xdc00))

/-- The character that a letter stands for behind a backslash. -/
def escapedChar? : Char → Option Char
  | '"' => some '"'
  | '\\' => some '\\'
  | '/' => some '/'
  | 'b' => some '\x08'
  | 'f' => some '\x0c'
  | 'n' => some '\n'
  | 'r' => some '\r'
  | 't' => some '\t'
  | _ => none

def prepend (c : Char) (step : Step (List Char)) : Step (List Char) :=
  step.map fun (text, rest) => (c :: text, rest)

def readText : List Char → Step (List Char)
  | [] => .error .endOfText
  | '"' :: rest => .ok ([], rest)
  | '\\' :: 'u' :: a :: b :: c :: d :: rest =>
    match unitValue? a b c d with
    | none => .error .badEscape
    | some unit =>
      if isLowSurrogate unit then .error .loneSurrogate
      else if isHighSurrogate unit then
        match rest with
        | '\\' :: 'u' :: e :: f :: g :: h :: rest =>
          match unitValue? e f g h with
          | none => .error .badEscape
          | some low =>
            if isLowSurrogate low then prepend (pairedChar unit low) (readText rest)
            else .error .loneSurrogate
        | _ => .error .loneSurrogate
      else prepend (Char.ofNat unit) (readText rest)
  | '\\' :: e :: rest =>
    match escapedChar? e with
    | some c => prepend c (readText rest)
    | none => .error .badEscape
  | c :: rest =>
    if c.toNat < 0x20 then .error .controlCharacter else prepend c (readText rest)

end DesignTokens.Json
