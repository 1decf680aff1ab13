import DesignTokens.Text.HexDigit
import DesignTokens.Yaml.Basic

/-!
Texts that flow over lines: plain ones and those in single or double quotes. White space inside
them is kept as long as it holds no line break. Otherwise it is folded, so that the text does not
depend on where its lines end: one break becomes a space and of several the first is dropped.
-/
namespace DesignTokens.Yaml

/-- What white space inside a flowing text stands for. -/
def foldGap (gap : List Char) : List Char :=
  match gap.filter isBreak with
  | [] => gap
  | ['\n'] => [' ']
  | '\n' :: more => more
  | breaks => breaks

/-- How far the white space behind the last line break reaches. -/
def lastColumn (gap : List Char) : Nat := (gap.reverse.takeWhile (!isBreak ·)).length

/-- Whether what follows the white space begins a line. -/
def endsLine (gap : List Char) : Bool := gap.any isBreak && lastColumn gap == 0

/-- A text in single quotes, read behind the opening one; `gap` is the white space read since the
last character. A quote inside it is written twice. -/
def readSingleQuoted (gap : List Char) : List Char → Step (List Char)
  | [] => .error .openQuote
  | '\x27' :: '\x27' :: rest => prepend (foldGap gap ++ ['\x27']) (readSingleQuoted [] rest)
  | '\x27' :: rest => .ok (foldGap gap, rest)
  | c :: rest =>
    if isGap c then readSingleQuoted (gap ++ [c]) rest
    else if endsLine gap && startsDocumentMark (c :: rest) then .error .documentMarkInQuote
    else prepend (foldGap gap ++ [c]) (readSingleQuoted [] rest)

/-- The character that stands behind a backslash for another one. -/
def escapedChar? : Char → Option Char
  | '0' => some '\x00'
  | 'a' => some '\x07'
  | 'b' => some '\x08'
  | 't' | '\t' => some '\t'
  | 'n' => some '\n'
  | 'v' => some '\x0b'
  | 'f' => some '\x0c'
  | 'r' => some '\r'
  | 'e' => some '\x1b'
  | ' ' => some ' '
  | '"' => some '"'
  | '/' => some '/'
  | '\\' => some '\\'
  | 'N' => some '\u0085'
  | '_' => some '\u00a0'
  | 'L' => some '\u2028'
  | 'P' => some '\u2029'
  | _ => none

/-- How many digits of a code point follow the character behind a backslash. -/
def codeLength? : Char → Option Nat
  | 'x' => some 2
  | 'u' => some 4
  | 'U' => some 8
  | _ => none

/-- Where the reading of a text in double quotes stands: behind a character and the white space
after it, the line break before which may have been escaped; behind a backslash; or before the
last digits of a code point. -/
inductive Within where
  | text (escapedBreak : Bool) (gap : List Char)
  | escape
  | code (digits value : Nat)

/-- An escaped line break is dropped with the white space after it, further breaks excepted. -/
def joinGap (escapedBreak : Bool) (gap : List Char) : List Char :=
  if escapedBreak then gap.filter isBreak else foldGap gap

def charOfCode? (code : Nat) : Option Char :=
  if h : code.isValidChar then some (Char.ofNatAux code h) else none

/-- A text in double quotes, read behind the opening one. -/
def readDoubleQuoted : Within → List Char → Step (List Char)
  | _, [] => .error .openQuote
  | .escape, c :: rest =>
    if isBreak c then readDoubleQuoted (.text true []) rest
    else
      match escapedChar? c, codeLength? c with
      | some e, _ => prepend [e] (readDoubleQuoted (.text false []) rest)
      | none, some digits => readDoubleQuoted (.code digits 0) rest
      | none, none => .error .badEscape
  | .code digits value, c :: rest =>
    match Text.hexValue? c with
    | none => .error .badEscape
    | some d =>
      if 1 < digits then readDoubleQuoted (.code (digits - 1) (16 * value + d)) rest
      else
        match charOfCode? (16 * value + d) with
        | some e => prepend [e] (readDoubleQuoted (.text false []) rest)
        | none => .error .badEscape
  | .text escapedBreak gap, c :: rest =>
    if isGap c then readDoubleQuoted (.text escapedBreak (gap ++ [c])) rest
    else if c = '"' then .ok (joinGap escapedBreak gap, rest)
    else if (endsLine gap || (escapedBreak && gap.isEmpty)) && startsDocumentMark (c :: rest) then
      .error .documentMarkInQuote
    else if c = '\\' then prepend (joinGap escapedBreak gap) (readDoubleQuoted .escape rest)
    else prepend (joinGap escapedBreak gap ++ [c]) (readDoubleQuoted (.text false []) rest)

/-- A plain text, and whether its last line was ended by the white space behind it. -/
structure Plain where
  text : List Char
  endedLine : Bool

def isFlowIndicator (c : Char) : Bool := c = ',' || c = '[' || c = ']' || c = '{' || c = '}'

/-- Whether a plain text ends before `c`, which is no white space. -/
def endsPlain (flow : Bool) (c : Char) (rest : List Char) : Bool :=
  (c = ':' && startsGap rest) || (flow && isFlowIndicator c)

def startsFlowEnd : List Char → Bool
  | [] => false
  | c :: _ => isFlowIndicator c || c = '?'

/-- A plain text. Outside of flow collections each of its lines but the first is indented by
`indent` at least. White space behind it is taken with it. -/
def readPlain (flow : Bool) (indent : Nat) (gap : List Char) :
    List Char → Except Fault (Plain × List Char)
  | [] => .ok (⟨[], gap.any isBreak⟩, [])
  | c :: rest =>
    let indented := !gap.any isBreak || indent ≤ lastColumn gap
    if isGap c then
      if c = '\t' && !indented then .error .tabInIndentation
      else readPlain flow indent (gap ++ [c]) rest
    else if (!flow && !indented) || (endsLine gap && startsDocumentMark (c :: rest)) ||
        (c = '#' && !gap.isEmpty) then
      .ok (⟨[], gap.any isBreak⟩, c :: rest)
    else if flow && c = ':' && startsFlowEnd rest then .error .colonInFlow
    else if endsPlain flow c rest then .ok (⟨[], gap.any isBreak⟩, c :: rest)
    else
      (readPlain flow indent [] rest).map fun (plain, rest) =>
        ({ plain with text := foldGap gap ++ c :: plain.text }, rest)

end DesignTokens.Yaml
