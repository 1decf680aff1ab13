import DesignTokens.Text.HexDigit
import DesignTokens.Yaml.Block

/-!
Marks that stand beside the content of a YAML text: anchors and aliases, tags, and the directives
in front of a document. Nothing here depends on where in the text a mark stands.
-/
namespace DesignTokens.Yaml

def mayFollowAnchor : List Char → Bool
  | [] => true
  | c :: _ =>
    isGap c || c = '?' || c = ':' || c = ',' || c = ']' || c = '}' || c = '%' || c = '@' ||
      c = '\x60'

/-- The name of an anchor or alias, read behind its first character. -/
def readAnchor (cs : List Char) : Step (List Char) :=
  let name := cs.takeWhile isWordChar
  let rest := cs.dropWhile isWordChar
  if name.isEmpty || !mayFollowAnchor rest then .error .badAnchor else .ok (name, rest)

def isUriChar (verbatim : Bool) (c : Char) : Bool :=
  isWordChar c || c = ';' || c = '/' || c = '?' || c = ':' || c = '@' || c = '&' || c = '=' ||
    c = '+' || c = '$' || c = '.' || c = '!' || c = '~' || c = '*' || c = '\x27' || c = '(' ||
    c = ')' || (verbatim && (c = ',' || c = '[' || c = ']'))

/-- How many octets follow one that leads a UTF-8 sequence. -/
def trailingOctets? (octet : Nat) : Option Nat :=
  if octet < 0x80 then some 0
  else if octet / 0x20 = 6 then some 1
  else if octet / 0x10 = 14 then some 2
  else if octet / 0x08 = 30 then some 3
  else none

/-- The text behind the characters of an identifier, in which octets may be escaped by their
hexadecimal digits; `trailing` of them are still missing from a sequence. -/
def skipUri (verbatim : Bool) (trailing : Nat) : List Char → Except Fault (List Char)
  | '%' :: high :: low :: rest =>
    match Text.hexValue? high, Text.hexValue? low with
    | some high, some low =>
      let octet := 16 * high + low
      match trailing with
      | 0 =>
        match trailingOctets? octet with
        | some more => skipUri verbatim more rest
        | none => .error .badTag
      | more + 1 => if octet / 0x40 = 2 then skipUri verbatim more rest else .error .badTag
    | _, _ => .error .badTag
  | [] => if trailing = 0 then .ok [] else .error .badTag
  | c :: rest =>
    if 0 < trailing || c = '%' then .error .badTag
    else if isUriChar verbatim c then skipUri verbatim 0 rest
    else .ok (c :: rest)

def skipUriOnce (verbatim : Bool) (cs : List Char) : Except Fault (List Char) := do
  let rest ← skipUri verbatim 0 cs
  if rest.length < cs.length then return rest else throw .badTag

/-- The handle at the start of a tag, behind its first character: the word before a second
exclamation mark, if there is one. -/
def splitHandle (cs : List Char) : Option (List Char) × List Char :=
  match cs.dropWhile isWordChar with
  | '!' :: rest => (some (cs.takeWhile isWordChar), rest)
  | rest => (none, rest)

/-- The text behind a tag, read behind its first character. A handle has to be known, the empty
one excepted. -/
def skipTag (handles : List (List Char)) (flow : Bool) (cs : List Char) :
    Except Fault (List Char) := do
  let rest ←
    match cs with
    | '<' :: cs =>
      match ← skipUriOnce true cs with
      | '>' :: rest => pure rest
      | _ => throw .badTag
    | _ =>
      match splitHandle cs with
      | (some handle, rest) =>
        if handle.isEmpty || handles.contains handle then skipUriOnce false rest else throw .badTag
      | (none, rest) => skipUri false 0 rest
  if startsGap rest || (flow && rest.head? = some ',') then return rest else throw .badTag

inductive Directive where
  | version
  | handle (name : List Char)
deriving DecidableEq, Repr

def takeVersionPart? (cs : List Char) : Option (Nat × List Char) :=
  let digits := cs.takeWhile Char.isDigit
  if digits.isEmpty || 9 < digits.length then none
  else some (Nat.ofDigitChars 10 digits 0, cs.dropWhile Char.isDigit)

/-- The text behind a version number, which has to be 1.1 or 1.2. -/
def skipVersion? (cs : List Char) : Option (List Char) := do
  let (major, rest) ← takeVersionPart? (cs.dropWhile isSpace)
  let '.' :: rest := rest | none
  let (minor, rest) ← takeVersionPart? rest
  if major = 1 && (minor = 1 || minor = 2) then some rest else none

/-- The handle that a directive declares, and the text behind what it stands for. Both handles
without a word in them are told apart by their exclamation marks. -/
def readHandle (cs : List Char) : Except Fault (List Char × List Char) := do
  let '!' :: cs := cs.dropWhile isSpace | throw .badDirective
  let (name, rest) ←
    match splitHandle cs with
    | (some name, rest) => pure (if name.isEmpty then ['!'] else name, rest)
    | (none, rest) =>
      if rest.length = cs.length then pure ([], rest) else throw .badDirective
  if !(rest.head?.any isSpace) then throw .badDirective
  let rest ← skipUriOnce true (rest.dropWhile isSpace)
  if startsGap rest then return (name, rest) else throw .badDirective

/-- A directive behind its first character, with the line it stands in. -/
def readDirective (cs : List Char) : Except Fault (Directive × List Char) := do
  let name := String.ofList (cs.takeWhile isWordChar)
  let rest := cs.dropWhile isWordChar
  if !startsGap rest then throw .badDirective
  let (directive, rest) ←
    if name = "YAML" then
      match skipVersion? (rest.dropWhile isSpace) with
      | some rest => pure (Directive.version, rest)
      | none => throw .badDirective
    else if name = "TAG" then do
      let (handle, rest) ← readHandle rest
      pure (Directive.handle handle, rest)
    else throw .badDirective
  match endLine? rest with
  | some rest => return (directive, rest)
  | none => throw .badDirective

end DesignTokens.Yaml
