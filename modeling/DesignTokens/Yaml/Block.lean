import DesignTokens.Yaml.Basic

/-!
Blocks of text: the lines below a heading, indented further than what they belong to. In a literal
block every line break counts; in a folded one a single break between two lines that do not begin
with white space becomes a space. The heading says what becomes of the breaks at the end.
-/
namespace DesignTokens.Yaml

/-- What becomes of the line breaks at the end of a block. -/
inductive Chomp where
  | strip
  | clip
  | keep
deriving DecidableEq, Repr

structure BlockHeader where
  folded : Bool
  chomp : Chomp
  /-- By how much the lines are indented, if the heading says so. -/
  indent : Option Nat

def chomp? : Char → Option Chomp
  | '-' => some .strip
  | '+' => some .keep
  | _ => none

def takeChomp (cs : List Char) : Option Chomp × List Char :=
  match cs with
  | [] => (none, [])
  | c :: rest =>
    match chomp? c with
    | some chomp => (some chomp, rest)
    | none => (none, c :: rest)

def takeIndent : List Char → Step (Option Nat)
  | [] => .ok (none, [])
  | c :: rest =>
    if c = '0' then .error .badBlockHeader
    else if c.isDigit then .ok (some (c.toNat - '0'.toNat), rest)
    else .ok (none, c :: rest)

/-- The text behind a line that holds nothing more, a comment excepted. -/
def endLine? (cs : List Char) : Option (List Char) :=
  let rest :=
    match cs.dropWhile isSpace with
    | '#' :: comment => comment.dropWhile (!isBreak ·)
    | rest => rest
  match rest with
  | [] => some []
  | c :: rest => if isBreak c then some rest else none

/-- The heading behind its first character. The two marks may stand in either order. -/
def readBlockHeader (folded : Bool) (cs : List Char) :
    Except Fault (BlockHeader × List Char) := do
  let (early, rest) := takeChomp cs
  let (indent, rest) ← takeIndent rest
  let (chomp, rest) :=
    match early, indent with
    | none, some _ => takeChomp rest
    | _, _ => (early, rest)
  match endLine? rest with
  | some rest => return (⟨folded, chomp.getD .clip, indent⟩, rest)
  | none => throw .badBlockHeader

/-- The widest indentation found before the first line that is not blank, that line included. -/
def widestIndent (widest column : Nat) : List Char → Except Fault Nat
  | [] => .ok (max widest column)
  | c :: rest =>
    if c = ' ' then widestIndent widest (column + 1) rest
    else if c = '\t' then .error .tabInIndentation
    else if isBreak c then widestIndent (max widest column) 0 rest
    else .ok (max widest column)

/-- What lies between the ends of two lines of a block: the break after the one, the breaks after
blank lines and the indentation read so far of the other. -/
structure LineGap where
  first : List Char := []
  blank : List Char := []
  column : Nat := 0

namespace LineGap

/-- What the gap stands for between two lines, one of which may begin with white space. -/
def between (folded spaced : Bool) (g : LineGap) : List Char :=
  if folded && g.first == ['\n'] && !spaced then
    if g.blank.isEmpty then [' '] else g.blank
  else g.first ++ g.blank

/-- What the gap stands for behind the last line. -/
def atEnd (chomp : Chomp) (g : LineGap) : List Char :=
  match chomp with
  | .strip => []
  | .clip => g.first
  | .keep => g.first ++ g.blank

end LineGap

/-- The lines of a block, up to one that is indented by less than `indent`. The gap is that before
the line to be read, if the reading stands at one; `spaced` tells whether the line before it, or
else the present one, begins with white space. -/
def readBlock (header : BlockHeader) (indent : Nat) (spaced : Bool) :
    Option LineGap → List Char → Step (List Char)
  | none, [] => .ok ([], [])
  | some gap, [] => .ok (gap.atEnd header.chomp, [])
  | none, c :: rest =>
    if isBreak c then readBlock header indent spaced (some { first := [c] }) rest
    else prepend [c] (readBlock header indent spaced none rest)
  | some gap, c :: rest =>
    if isBreak c then
      readBlock header indent spaced (some { gap with blank := gap.blank ++ [c], column := 0 }) rest
    else if gap.column < indent then
      if c = ' ' then
        readBlock header indent spaced (some { gap with column := gap.column + 1 }) rest
      else if c = '\t' then .error .tabInIndentation
      else .ok (gap.atEnd header.chomp, c :: rest)
    else
      prepend (gap.between header.folded (spaced || isSpace c) ++ [c])
        (readBlock header indent (isSpace c) none rest)

/-- A block of text behind the first character of its heading. `parent` is the column of the
collection it belongs to. -/
def readBlockText (folded : Bool) (parent : Option Nat) (cs : List Char) :
    Except Fault (List Char × List Char) := do
  let (header, rest) ← readBlockHeader folded cs
  let least := (parent.map (· + 1)).getD 0
  let indent ←
    match header.indent with
    | some more => pure (parent.getD 0 + more)
    | none => (widestIndent 0 0 rest).map fun widest => max (max widest least) 1
  readBlock header indent false (some {}) rest

end DesignTokens.Yaml
