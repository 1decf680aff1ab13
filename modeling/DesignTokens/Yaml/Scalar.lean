import DesignTokens.Binary64.Decimal
import DesignTokens.Yaml.Flowing

/-!
Writing a text as a YAML scalar in the plainest notation that gives it back: as it stands, in
single quotes, as a literal block if it has several lines, and in double quotes, where every
character can be escaped, if nothing else will do. A text that would be taken for a number, for a
truth value or for nothing at all is not left plain.
-/
namespace DesignTokens.Yaml

/-- Characters that need not be escaped. -/
def isPrintable (c : Char) : Bool :=
  let n := c.toNat
  n == 0x0a || (0x20 ≤ n && n ≤ 0x7e) ||
    (0xa0 ≤ n && n != 0xfeff && n != 0xfffe && n != 0xffff)

def isPlainSpace (c : Char) : Bool := c = ' '

/-- Whether a character of the first kind is followed at once by one of the second. -/
def hasAdjacent (p q : Char → Bool) : List Char → Bool
  | c :: d :: rest => (p c && q d) || hasAdjacent p q (d :: rest)
  | _ => false

/-- Whether a number sign begins a comment somewhere behind the first character, or a colon ends a
key. -/
def breaksOff (afterGap : Bool) : List Char → Bool
  | [] => false
  | c :: rest =>
    (c = '#' && afterGap) || (c = ':' && startsGap rest) || breaksOff (isGap c) rest

def startsReserved : List Char → Bool
  | '-' :: '-' :: '-' :: _ => true
  | '.' :: '.' :: '.' :: _ => true
  | c :: rest =>
    "#,[]\x7b\x7d&*!|>\x27\"%@\x60".toList.contains c ||
      ((c = '?' || c = ':' || c = '-') && startsGap rest)
  | [] => false

def fitsSingleQuotes (cs : List Char) : Bool :=
  cs.all isPrintable && !hasAdjacent isPlainSpace isBreak cs && !hasAdjacent isBreak isPlainSpace cs

def fitsBlock (cs : List Char) : Bool :=
  cs.all isPrintable && !hasAdjacent isPlainSpace isBreak cs && !(cs.getLast?.any isPlainSpace)

def fitsPlain (cs : List Char) : Bool :=
  cs.all isPrintable && !cs.any isBreak && !(cs.head?.any isPlainSpace) &&
    !(cs.getLast?.any isPlainSpace) && !startsReserved cs && !breaksOff false cs

/-- What plain texts are taken for nothing or for a truth value. -/
def reservedWords : List String :=
  ["", "~", "null", "Null", "NULL", "true", "True", "TRUE", "false", "False", "FALSE"]

def specialNumbers : List String :=
  [".inf", ".Inf", ".INF", "+.inf", "+.Inf", "+.INF", "-.inf", "-.Inf", "-.INF",
    ".nan", ".NaN", ".NAN"]

def numberBase? : Char → Option Nat
  | 'x' => some 16
  | 'o' => some 8
  | 'b' => some 2
  | _ => none

/-- The value of digits in a base, if they are digits of that base and there are any. -/
def valueInBase? (base : Nat) (digits : List Char) : Option Nat :=
  if digits.isEmpty then none
  else
    digits.foldlM (fun value c => do
      let d ← Text.hexValue? c
      if d < base then some (base * value + d) else none) 0

/-- Whole numbers with the mark of a base, as far as 128 bits hold them. -/
def isInBase (negative : Bool) : List Char → Bool
  | '0' :: mark :: digits =>
    match (numberBase? mark).bind (valueInBase? · digits) with
    | some value => if negative then value ≤ Nat.pow 2 127 else value < Nat.pow 2 128
    | none => false
  | _ => false

/-- A text without its sign, and whether that is a minus. -/
def splitSign : List Char → Bool × List Char
  | '-' :: rest => (true, rest)
  | '+' :: rest => (false, rest)
  | cs => (false, cs)

/-- Whether a text is a number, or would be one without needless zeros in front. -/
def isNumeric (cs : List Char) : Bool :=
  let (negative, unsigned) := splitSign cs
  isInBase negative unsigned || specialNumbers.contains (String.ofList cs) ||
    (Binary64.read? cs).any Binary64.isFinite

/-- Whether a plain text would be taken for something else than a text. -/
def isAmbiguous (cs : List Char) : Bool :=
  reservedWords.contains (String.ofList cs) || isNumeric cs

inductive Form where
  | plain
  | singleQuoted
  | doubleQuoted
  | literal
deriving DecidableEq, Repr

def formOf (cs : List Char) : Form :=
  if cs.contains '\n' then if fitsBlock cs then .literal else .doubleQuoted
  else if !isAmbiguous cs && fitsPlain cs then .plain
  else if fitsSingleQuotes cs then .singleQuoted
  else .doubleQuoted

def spaces (n : Nat) : List Char := List.replicate n ' '

/-- The text in single quotes up to the closing one. A line that a break opens is indented. -/
def writeSingleQuoted (indent : Nat) (newLine : Bool) : List Char → List Char
  | [] => if newLine then spaces indent else []
  | c :: rest =>
    if isBreak c then c :: writeSingleQuoted indent true rest
    else
      (if newLine then spaces indent else []) ++ (if c = '\x27' then ['\x27', '\x27'] else [c]) ++
        writeSingleQuoted indent false rest

def codeDigits : (length code : Nat) → List Char
  | 0, _ => []
  | length + 1, code =>
    codeDigits length (code / 16) ++ [(Text.hexDigit (code % 16)).toUpper]

/-- What stands behind the backslash for a character. -/
def escapeOf (c : Char) : List Char :=
  let n := c.toNat
  match n with
  | 0x00 => ['0']
  | 0x07 => ['a']
  | 0x08 => ['b']
  | 0x09 => ['t']
  | 0x0a => ['n']
  | 0x0b => ['v']
  | 0x0c => ['f']
  | 0x0d => ['r']
  | 0x1b => ['e']
  | 0x22 => ['"']
  | 0x5c => ['\\']
  | 0x85 => ['N']
  | 0xa0 => ['_']
  | 0x2028 => ['L']
  | 0x2029 => ['P']
  | _ =>
    if n ≤ 0xff then 'x' :: codeDigits 2 n
    else if n ≤ 0xffff then 'u' :: codeDigits 4 n
    else 'U' :: codeDigits 8 n

def writeDoubleQuoted : List Char → List Char
  | [] => []
  | c :: rest =>
    (if !isPrintable c || isBreak c || c = '"' || c = '\\' then '\\' :: escapeOf c else [c]) ++
      writeDoubleQuoted rest

/-- The heading of a literal block behind its first character. The indentation is given where the
first line does not show it; a missing line break at the end is marked, and so are further ones. -/
def literalMarks (cs : List Char) : List Char :=
  let indent := if cs.head?.any fun c => isPlainSpace c || isBreak c then ['2'] else []
  let chomp :=
    match cs.reverse with
    | [] => ['-']
    | last :: before =>
      if !isBreak last then ['-']
      else
        match before with
        | [] => ['+']
        | c :: _ => if isBreak c then ['+'] else []
  indent ++ chomp

/-- The lines of a literal block, each of them ended. -/
def writeLines (indent : Nat) (newLine : Bool) : List Char → List Char
  | [] => if newLine then [] else ['\n']
  | c :: rest =>
    if isBreak c then c :: writeLines indent true rest
    else (if newLine then spaces indent else []) ++ c :: writeLines indent false rest

/-- A text with the end of its last line; further lines are indented by `indent`. -/
def writeScalar (indent : Nat) (cs : List Char) : List Char :=
  match formOf cs with
  | .plain => cs ++ ['\n']
  | .singleQuoted => '\x27' :: writeSingleQuoted indent false cs ++ ['\x27', '\n']
  | .doubleQuoted => '"' :: writeDoubleQuoted cs ++ ['"', '\n']
  | .literal => '|' :: literalMarks cs ++ '\n' :: writeLines indent true cs

end DesignTokens.Yaml
