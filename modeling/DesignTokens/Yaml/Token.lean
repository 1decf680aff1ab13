import DesignTokens.Yaml.Flowing
import DesignTokens.Yaml.Mark

/-!
YAML text as a list of tokens. Indentation is turned into tokens that open and close collections.

A key need not be marked as one in front: a text or a flow collection turns out to be a key when a
colon follows it in the same line. Where that may happen the place is kept in mind, and the tokens
that announce the key are put in there later.
-/
namespace DesignTokens.Yaml

inductive Token where
  | directive
  | documentStart
  | documentEnd
  | blockSequence
  | blockMapping
  | blockEnd
  | flowSequence
  | flowSequenceEnd
  | flowMapping
  | flowMappingEnd
  | flowEntry
  | entry
  | key
  | value
  | anchor (label : Nat)
  | aliasOf (label : Nat)
  | tag
  | scalar (plain : Bool) (text : List Char)
deriving DecidableEq, Repr

structure Cursor where
  rest : List Char
  /-- The number of UTF-8 bytes passed. -/
  offset : Nat := 0
  line : Nat := 0
  column : Nat := 0

namespace Cursor

def advance (place : Cursor) : Cursor :=
  match place.rest with
  | [] => place
  | c :: rest =>
    let offset := place.offset + c.utf8Size
    if isBreak c then ⟨rest, offset, place.line + 1, 0⟩
    else ⟨rest, offset, place.line, place.column + 1⟩

def skip : Nat → Cursor → Cursor
  | 0, place => place
  | n + 1, place => skip n place.advance

/-- Goes on to where `rest` is what remains. -/
def skipTo (place : Cursor) (rest : List Char) : Cursor :=
  place.skip (place.rest.length - rest.length)

end Cursor

/-- A place where a key may have begun. -/
structure PossibleKey where
  /-- How many tokens precede it. -/
  before : Nat
  offset : Nat
  line : Nat
  column : Nat
  /-- Whether nothing but a key may stand there. -/
  required : Bool

/-- How far apart, in UTF-8 bytes, a key may begin and its colon stand. -/
def maxKeySize : Nat := 1024

def PossibleKey.isOver (key : PossibleKey) (place : Cursor) : Bool :=
  key.line < place.line || key.offset + maxKeySize < place.offset

/-- How far the reading has come. -/
structure Scan where
  cursor : Cursor
  /-- The tokens found, the latest first. -/
  tokens : List Token := []
  /-- The columns of the block collections that are open, the innermost first. -/
  columns : List Nat := []
  key : Option PossibleKey := none
  /-- The keys that the open flow collections may turn out to be or to be part of. -/
  outerKeys : List (Option PossibleKey) := []
  keyAllowed : Bool := true
  /-- The anchors by name, each with the number it was given last. -/
  anchors : List (List Char × Nat) := []
  handles : List (List Char) := []
  versioned : Bool := false

namespace Scan

def inFlow (s : Scan) : Bool := !s.outerKeys.isEmpty

def push (token : Token) (s : Scan) : Scan := { s with tokens := token :: s.tokens }

/-- Puts a token in behind the first `before` ones. -/
def insert (before : Nat) (token : Token) (s : Scan) : Scan :=
  let later := s.tokens.length - before
  { s with tokens := s.tokens.take later ++ token :: s.tokens.drop later }

def skip (n : Nat) (s : Scan) : Scan := { s with cursor := s.cursor.skip n }

def skipTo (rest : List Char) (s : Scan) : Scan := { s with cursor := s.cursor.skipTo rest }

def allowKey (allowed : Bool) (s : Scan) : Scan := { s with keyAllowed := allowed }

def dropKey (s : Scan) : Except Fault Scan :=
  if s.key.any PossibleKey.required then .error .keyWithoutColon else .ok { s with key := none }

/-- Keeps in mind that a key may begin here. -/
def saveKey (s : Scan) : Except Fault Scan :=
  if s.keyAllowed then do
    let s ← s.dropKey
    let place := s.cursor
    let required := !s.inFlow && s.columns.head? = some place.column
    return { s with
      key := some ⟨s.tokens.length, place.offset, place.line, place.column, required⟩ }
  else .ok s

/-- Opens a block collection at `column` if it lies further in than the innermost one. -/
def openBlock (column : Nat) (insert : Token → Scan → Scan) (token : Token) (s : Scan) : Scan :=
  if s.inFlow || s.columns.head?.any (column ≤ ·) then s
  else insert token { s with columns := column :: s.columns }

/-- Closes the block collections whose columns satisfy `p`, from the innermost one outwards. -/
def closeBlocks (p : Nat → Bool) (s : Scan) : Scan :=
  if s.inFlow then s
  else
    { s with
      tokens := (s.columns.takeWhile p).map (fun _ => Token.blockEnd) ++ s.tokens
      columns := s.columns.dropWhile p }

/-- The text from the next token on, and whether it may be a key. -/
def skipGaps (flow : Bool) (comment allowed : Bool) (column : Nat) : List Char → List Char × Bool
  | [] => ([], allowed)
  | c :: rest =>
    if isBreak c then skipGaps flow false (allowed || !flow) 0 rest
    else if comment || c = '#' then skipGaps flow true allowed (column + 1) rest
    else if c = ' ' || (c = '\t' && (flow || !allowed)) || (c = orderMark && column == 0) then
      skipGaps flow false allowed (column + 1) rest
    else (c :: rest, allowed)

def expireKey (place : Cursor) : Option PossibleKey → Except Fault (Option PossibleKey)
  | none => .ok none
  | some key =>
    if key.isOver place then if key.required then .error .keyWithoutColon else .ok none
    else .ok (some key)

/-- Goes on to the next token and closes what its column closes. -/
def settle (s : Scan) : Except Fault Scan := do
  let (rest, allowed) := skipGaps s.inFlow false s.keyAllowed s.cursor.column s.cursor.rest
  let place := s.cursor.skipTo rest
  let key ← expireKey place s.key
  let outerKeys ← s.outerKeys.mapM (expireKey place)
  let s := { s with cursor := place, key := key, outerKeys := outerKeys, keyAllowed := allowed }
  return s.closeBlocks (place.column < ·)

/-- Ends the document, as directives and document marks do. -/
def leaveDocument (s : Scan) : Except Fault Scan := do
  let s ← (s.closeBlocks fun _ => true).dropKey
  return s.allowKey false

def documentMark (token : Token) (s : Scan) : Except Fault Scan := do
  let s ← s.leaveDocument
  return (s.skip 3).push token

def directive (rest : List Char) (s : Scan) : Except Fault Scan := do
  let s ← s.leaveDocument
  let (directive, rest) ← readDirective rest
  let s := (s.skipTo rest).push .directive
  match directive with
  | .version => if s.versioned then throw .badDirective else return { s with versioned := true }
  | .handle name =>
    if s.handles.contains name then throw .badDirective
    else return { s with handles := name :: s.handles }

def openFlow (token : Token) (s : Scan) : Except Fault Scan := do
  let s ← s.saveKey
  let s := { s with key := none, outerKeys := s.key :: s.outerKeys, keyAllowed := true }
  return (s.skip 1).push token

def closeFlow (token : Token) (s : Scan) : Except Fault Scan := do
  let s ← s.dropKey
  let s := { s with
    key := s.outerKeys.head?.join, outerKeys := s.outerKeys.tail, keyAllowed := false }
  return (s.skip 1).push token

def flowEntry (s : Scan) : Except Fault Scan := do
  let s ← s.dropKey
  return ((s.allowKey true).skip 1).push .flowEntry

def entry (s : Scan) : Except Fault Scan := do
  if !s.inFlow && !s.keyAllowed then throw .misplacedEntry
  let s ← (s.openBlock s.cursor.column push .blockSequence).dropKey
  return ((s.allowKey true).skip 1).push .entry

def markedKey (s : Scan) : Except Fault Scan := do
  if !s.inFlow && !s.keyAllowed then throw .misplacedKey
  let s ← (s.openBlock s.cursor.column push .blockMapping).dropKey
  return ((s.allowKey !s.inFlow).skip 1).push .key

def value (s : Scan) : Except Fault Scan :=
  match s.key with
  | some key =>
    let s := (s.insert key.before .key).openBlock key.column (insert key.before) .blockMapping
    .ok ((({ s with key := none }.allowKey false).skip 1).push .value)
  | none =>
    if !s.inFlow && !s.keyAllowed then .error .misplacedValue
    else
      let s := s.openBlock s.cursor.column push .blockMapping
      .ok (((s.allowKey !s.inFlow).skip 1).push .value)

/-- An anchor is numbered by how many names there are already; an alias has the number that was
given to its name last. -/
def anchor (rest : List Char) (s : Scan) : Except Fault Scan := do
  let s ← s.saveKey
  let (name, rest) ← readAnchor rest
  let label := s.anchors.length
  let anchors := (name, label) :: s.anchors.filter (·.1 ≠ name)
  return (({ s with anchors := anchors }.allowKey false).skipTo rest).push (.anchor label)

def aliasOf (rest : List Char) (s : Scan) : Except Fault Scan := do
  let s ← s.saveKey
  let (name, rest) ← readAnchor rest
  match s.anchors.find? (·.1 = name) with
  | some (_, label) => return ((s.allowKey false).skipTo rest).push (.aliasOf label)
  | none => throw (.unknownAnchor (String.ofList name))

def tag (rest : List Char) (s : Scan) : Except Fault Scan := do
  let s ← s.saveKey
  let rest ← skipTag s.handles s.inFlow rest
  return ((s.allowKey false).skipTo rest).push .tag

def block (folded : Bool) (rest : List Char) (s : Scan) : Except Fault Scan := do
  let s ← s.dropKey
  let (text, rest) ← readBlockText folded s.columns.head? rest
  return ((s.allowKey true).skipTo rest).push (.scalar false text)

def quoted (read : Step (List Char)) (s : Scan) : Except Fault Scan := do
  let s ← s.saveKey
  let (text, rest) ← read
  return ((s.allowKey false).skipTo rest).push (.scalar false text)

def plain (s : Scan) : Except Fault Scan := do
  let s ← s.saveKey
  let indent := (s.columns.head?.map (· + 1)).getD 0
  let (plain, rest) ← readPlain s.inFlow indent [] s.cursor.rest
  return ((s.allowKey plain.endedLine).skipTo rest).push (.scalar true plain.text)

/-- Characters no plain text begins with; three of them begin one all the same where they do not
stand for themselves. -/
def isIndicator (c : Char) : Bool :=
  "-?:,[]\x7b\x7d#&*!|>\x27\"%@\x60".toList.contains c

def startsPlain (flow : Bool) (c : Char) (rest : List Char) : Bool :=
  !(isIndicator c || isGap c) ||
    (c = '-' && !(rest.head?.any isSpace)) ||
    (!flow && (c = '?' || c = ':') && !startsGap rest)

/-- The token that begins with `c`. -/
def token (c : Char) (rest : List Char) (s : Scan) : Except Fault Scan :=
  if s.cursor.column = 0 && c = '%' then s.directive rest
  else if s.cursor.column = 0 && startsDocumentMark (c :: rest) then
    s.documentMark (if c = '-' then .documentStart else .documentEnd)
  else if c = '[' then s.openFlow .flowSequence
  else if c = '{' then s.openFlow .flowMapping
  else if c = ']' then s.closeFlow .flowSequenceEnd
  else if c = '}' then s.closeFlow .flowMappingEnd
  else if c = ',' then s.flowEntry
  else if c = '-' && startsGap rest then s.entry
  else if c = '?' && (s.inFlow || startsGap rest) then s.markedKey
  else if c = ':' && (s.inFlow || startsGap rest) then s.value
  else if c = '*' then s.aliasOf rest
  else if c = '&' then s.anchor rest
  else if c = '!' then s.tag rest
  else if c = '|' && !s.inFlow then s.block false rest
  else if c = '>' && !s.inFlow then s.block true rest
  else if c = '\x27' then s.quoted (readSingleQuoted [] rest)
  else if c = '"' then s.quoted (readDoubleQuoted (.text false []) rest)
  else if startsPlain s.inFlow c rest then s.plain
  else .error (.unexpectedCharacter c)

/-- Every token takes a character at least, so that `fuel` need not exceed their number. -/
def run : (fuel : Nat) → Scan → Except Fault (List Token)
  | 0, _ => .error .unexpectedToken
  | fuel + 1, s => do
    let s ← s.settle
    match s.cursor.rest with
    | [] => return (← s.leaveDocument).tokens.reverse
    | c :: rest => (← s.token c rest).run fuel

end Scan

def tokens (cs : List Char) : Except Fault (List Token) := do
  let cs ← prepare cs
  Scan.run (cs.length + 1) { cursor := { rest := cs } }

end DesignTokens.Yaml
