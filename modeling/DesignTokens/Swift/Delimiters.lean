import DesignTokens.Failure
import DesignTokens.Text.Pieces

/-!
Checking that parentheses, brackets and braces are balanced. Within a line, string literals and
what follows two slashes do not count; a backslash in a string takes the next character with it,
and a string has to end on its line.
-/
namespace DesignTokens.Swift

def opener? : Char → Option Char
  | ')' => some '('
  | ']' => some '['
  | '}' => some '{'
  | _ => none

def isOpener (c : Char) : Bool := c = '(' || c = '[' || c = '{'

/-- An opened delimiter and the line it stands on. -/
structure Opened where
  delimiter : Char
  line : Nat
deriving DecidableEq

def close (line : Nat) (closing expected : Char) : List Opened → Except Failure (List Opened)
  | [] => .error (.unbalanced line (.unexpected closing))
  | o :: below =>
    if o.delimiter = expected then .ok below
    else .error (.unbalanced line (.mismatch closing o.delimiter o.line))

/-- Reads the rest of a line, within a string or not, with the delimiters opened so far. -/
def scanLine (line : Nat) (inString : Bool) (opened : List Opened) :
    List Char → Except Failure (List Opened)
  | [] => if inString then .error (.unbalanced line .unterminatedString) else .ok opened
  | '\\' :: [] =>
    if inString then .error (.unbalanced line .unterminatedString) else .ok opened
  | '\\' :: c :: rest =>
    if inString then scanLine line true opened rest else scanLine line false opened (c :: rest)
  | '"' :: rest => scanLine line (!inString) opened rest
  | '/' :: '/' :: rest =>
    if inString then scanLine line true opened ('/' :: rest) else .ok opened
  | c :: rest =>
    if inString then scanLine line true opened rest
    else if isOpener c then scanLine line false (⟨c, line⟩ :: opened) rest
    else
      match opener? c with
      | some expected => do
        let below ← close line c expected opened
        scanLine line false below rest
      | none => scanLine line false opened rest

def scanLines (line : Nat) (opened : List Opened) :
    List (List Char) → Except Failure (List Opened)
  | [] => .ok opened
  | text :: rest => do
    let opened ← scanLine line false opened text
    scanLines (line + 1) opened rest

def checkDelimiters (text : String) : Except Failure Unit := do
  let opened ← scanLines 1 [] (Text.pieces (· = '\n') text.toList)
  match opened with
  | [] => return ()
  | o :: _ => .error (.unbalanced o.line (.neverClosed o.delimiter))

end DesignTokens.Swift
