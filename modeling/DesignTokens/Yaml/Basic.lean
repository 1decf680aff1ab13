/-!
Characters of YAML text: which of them may stand in it at all, which end a line and which merely
separate. A line feed is what every line break is read as, the two Unicode separators excepted,
which are kept.
-/
namespace DesignTokens.Yaml

inductive Fault where
  | forbiddenCharacter (c : Char)
  | unexpectedCharacter (c : Char)
  | tabInIndentation
  | openQuote
  | documentMarkInQuote
  | badEscape
  | colonInFlow
  | badBlockHeader
  | badDirective
  | badAnchor
  | unknownAnchor (name : String)
  | badTag
  | keyWithoutColon
  | misplacedEntry
  | misplacedKey
  | misplacedValue
  | unexpectedToken
  | furtherDocument
deriving DecidableEq, Repr

def Fault.text : Fault → String
  | .forbiddenCharacter _ => "control characters are not allowed"
  | .unexpectedCharacter c => "no token starts with " ++ String.singleton c
  | .tabInIndentation => "a tab stands where indentation is expected"
  | .openQuote => "a quoted text is not closed"
  | .documentMarkInQuote => "a document mark stands inside a quoted text"
  | .badEscape => "unknown escape"
  | .colonInFlow => "unexpected colon in a flow collection"
  | .badBlockHeader => "malformed heading of a block of text"
  | .badDirective => "malformed directive"
  | .badAnchor => "malformed anchor or alias"
  | .unknownAnchor name => "unknown anchor " ++ name
  | .badTag => "malformed tag"
  | .keyWithoutColon => "a key is not followed by a colon"
  | .misplacedEntry => "a sequence entry is not allowed here"
  | .misplacedKey => "a key is not allowed here"
  | .misplacedValue => "a value is not allowed here"
  | .unexpectedToken => "unexpected token"
  | .furtherDocument => "more than one document"

/-- What a step of reading gives: a result and the text behind it. -/
abbrev Step (α : Type) := Except Fault (α × List Char)

def isBreak (c : Char) : Bool := c = '\n' || c = '\u2028' || c = '\u2029'

def isSpace (c : Char) : Bool := c = ' ' || c = '\t'

def isGap (c : Char) : Bool := isSpace c || isBreak c

/-- The byte order mark, which may stand in front of a line. -/
def orderMark : Char := '\ufeff'

/-- Whether a word ends here: at a gap or at the end of the text. -/
def startsGap : List Char → Bool
  | [] => true
  | c :: _ => isGap c

/-- Whether a line that begins so opens or closes a document. -/
def startsDocumentMark : List Char → Bool
  | '-' :: '-' :: '-' :: rest => startsGap rest
  | '.' :: '.' :: '.' :: rest => startsGap rest
  | _ => false

def isAllowed (c : Char) : Bool :=
  let n := c.toNat
  n == 0x09 || n == 0x0a || n == 0x0d || (0x20 ≤ n && n ≤ 0x7e) || n == 0x85 ||
    (0xa0 ≤ n && n ≤ 0xfffd) || 0x10000 ≤ n

def unifyBreaks : List Char → List Char
  | [] => []
  | '\r' :: '\n' :: rest => '\n' :: unifyBreaks rest
  | c :: rest => (if c = '\r' || c = '\u0085' then '\n' else c) :: unifyBreaks rest

/-- The text to be read, with its line breaks in one form. -/
def prepare (cs : List Char) : Except Fault (List Char) :=
  match cs.find? (!isAllowed ·) with
  | some c => .error (.forbiddenCharacter c)
  | none => .ok (unifyBreaks cs)

/-- Characters of anchors and of the names of directives and tags. -/
def isWordChar (c : Char) : Bool := c.isAlphanum || c = '-' || c = '_'

def prepend (front : List Char) (step : Step (List Char)) : Step (List Char) :=
  step.map fun (text, rest) => (front ++ text, rest)

end DesignTokens.Yaml
