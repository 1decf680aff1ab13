import DesignTokens.Yaml.Token

/-!
YAML values as trees. Tokens are read into a tree, collections in either notation alike, and what
is left out becomes an empty plain text. A node may carry the number of its anchor and an alias
stands for the node with its number, of several the one that begins last.
-/
namespace DesignTokens.Yaml

inductive Node where
  | scalar (label : Option Nat) (plain : Bool) (text : List Char)
  | sequence (label : Option Nat) (items : List Node)
  | mapping (label : Option Nat) (members : List (Node × Node))
  | aliasOf (label : Nat)

namespace Node

instance : Inhabited Node := ⟨.aliasOf 0⟩

def emptyText (label : Option Nat) : Node := .scalar label true []

/-- The nodes that carry the number, in the order in which they begin. -/
def marked (node : Node) (label : Option Nat) : List (Nat × Node) :=
  (label.map fun n => (n, node)).toList

mutual
def labelled : Node → List (Nat × Node)
  | .scalar label plain text => (Node.scalar label plain text).marked label
  | .sequence label items => (Node.sequence label items).marked label ++ labelledItems items
  | .mapping label members => (Node.mapping label members).marked label ++ labelledMembers members
  | .aliasOf _ => []
termination_by structural n => n

def labelledItems : List Node → List (Nat × Node)
  | [] => []
  | item :: rest => labelled item ++ labelledItems rest
termination_by structural ns => ns

def labelledMembers : List (Node × Node) → List (Nat × Node)
  | [] => []
  | member :: rest => labelledMember member ++ labelledMembers rest
termination_by structural ms => ms

def labelledMember : Node × Node → List (Nat × Node)
  | (key, value) => labelled key ++ labelled value
termination_by structural m => m
end

def find? (root : Node) (label : Nat) : Option Node :=
  (root.labelled.reverse.find? (·.1 = label)).map Prod.snd

end Node

/-- What reading tokens gives: a result and the tokens behind it. -/
abbrev Parsed (α : Type) := α × List Token

/-- Reads a node; the flags tell whether block collections are allowed, and block sequences
that are not indented. -/
abbrev NodeReader := (block unindented : Bool) → List Token → Except Fault (Parsed Node)

/-- The marks in front of a node: its number, and whether there are any. -/
def takeMarks : List Token → Option Nat × Bool × List Token
  | .anchor n :: .tag :: rest | .tag :: .anchor n :: rest | .anchor n :: rest =>
    (some n, true, rest)
  | .tag :: rest => (none, true, rest)
  | rest => (none, false, rest)

def nextIn (set tokens : List Token) : Bool := tokens.head?.any set.contains

/-- The node in front, or an empty one if a token of `stops` is next. -/
def readUnless (stops : List Token) (node : List Token → Except Fault (Parsed Node))
    (ts : List Token) : Except Fault (Parsed Node) :=
  if nextIn stops ts then .ok (.emptyText none, ts) else node ts

/-- The value behind `mark`; one that is missing is empty. -/
def readMarked (mark : Token) (stops : List Token) (node : List Token → Except Fault (Parsed Node))
    (ts : List Token) : Except Fault (Parsed Node) :=
  match ts with
  | [] => .ok (.emptyText none, [])
  | t :: rest => if t = mark then readUnless stops node rest else .ok (.emptyText none, t :: rest)

/-- Entries up to something else. -/
def readUnindented (node : NodeReader) :
    (fuel : Nat) → List Token → Except Fault (Parsed (List Node))
  | 0, _ => .error .unexpectedToken
  | fuel + 1, .entry :: rest => do
    let (item, rest) ← readUnless [.entry, .key, .value, .blockEnd] (node true false) rest
    let (items, rest) ← readUnindented node fuel rest
    return (item :: items, rest)
  | _ + 1, ts => .ok ([], ts)

def readBlockItems (node : NodeReader) :
    (fuel : Nat) → List Token → Except Fault (Parsed (List Node))
  | 0, _ => .error .unexpectedToken
  | fuel + 1, .entry :: rest => do
    let (item, rest) ← readUnless [.entry, .blockEnd] (node true false) rest
    let (items, rest) ← readBlockItems node fuel rest
    return (item :: items, rest)
  | _ + 1, .blockEnd :: rest => .ok ([], rest)
  | _ + 1, _ => .error .unexpectedToken

def readBlockMembers (node : NodeReader) :
    (fuel : Nat) → List Token → Except Fault (Parsed (List (Node × Node)))
  | 0, _ => .error .unexpectedToken
  | fuel + 1, .key :: rest => do
    let (key, rest) ← readUnless [.key, .value, .blockEnd] (node true true) rest
    let (value, rest) ← readMarked .value [.key, .value, .blockEnd] (node true true) rest
    let (members, rest) ← readBlockMembers node fuel rest
    return ((key, value) :: members, rest)
  | _ + 1, .blockEnd :: rest => .ok ([], rest)
  | _ + 1, _ => .error .unexpectedToken

/-- The tokens behind the comma that separates an item from the one before it. -/
def skipComma (first : Bool) (ts : List Token) : Except Fault (List Token) :=
  if first then .ok ts
  else
    match ts with
    | .flowEntry :: rest => .ok rest
    | _ => .error .unexpectedToken

/-- The single member of a mapping written as an item without braces. Where its key is left out
the token behind the question mark is passed over. -/
def readFlowPair (node : NodeReader) (ts : List Token) : Except Fault (Parsed Node) := do
  let (key, rest) ←
    if nextIn [.value, .flowEntry, .flowSequenceEnd] ts then
      pure (Node.emptyText none, ts.tail)
    else node false false ts
  let (value, rest) ← readMarked .value [.flowEntry, .flowSequenceEnd] (node false false) rest
  return (.mapping none [(key, value)], rest)

def readFlowItems (node : NodeReader) (first : Bool) :
    (fuel : Nat) → List Token → Except Fault (Parsed (List Node))
  | 0, _ => .error .unexpectedToken
  | _ + 1, .flowSequenceEnd :: rest => .ok ([], rest)
  | fuel + 1, ts => do
    match ← skipComma first ts with
    | .flowSequenceEnd :: rest => return ([], rest)
    | ts =>
      let (item, rest) ←
        match ts with
        | .key :: rest => readFlowPair node rest
        | _ => node false false ts
      let (items, rest) ← readFlowItems node false fuel rest
      return (item :: items, rest)

def readFlowMembers (node : NodeReader) (first : Bool) :
    (fuel : Nat) → List Token → Except Fault (Parsed (List (Node × Node)))
  | 0, _ => .error .unexpectedToken
  | _ + 1, .flowMappingEnd :: rest => .ok ([], rest)
  | fuel + 1, ts => do
    match ← skipComma first ts with
    | .flowMappingEnd :: rest => return ([], rest)
    | .key :: rest =>
      let (key, rest) ← readUnless [.value, .flowEntry, .flowMappingEnd] (node false false) rest
      let (value, rest) ← readMarked .value [.flowEntry, .flowMappingEnd] (node false false) rest
      let (members, rest) ← readFlowMembers node false fuel rest
      return ((key, value) :: members, rest)
    | ts =>
      let (key, rest) ← node false false ts
      let (members, rest) ← readFlowMembers node false fuel rest
      return ((key, .emptyText none) :: members, rest)

/-- A node behind its marks, what it contains being read by `node`. -/
def readContent (node : NodeReader) (block unindented : Bool) (label : Option Nat)
    (hasMarks : Bool) (ts : List Token) : Except Fault (Parsed Node) :=
  let fuel := ts.length + 1
  let sequence (read : Except Fault (Parsed (List Node))) :=
    read.map fun (items, rest) => (Node.sequence label items, rest)
  let mapping (read : Except Fault (Parsed (List (Node × Node)))) :=
    read.map fun (members, rest) => (Node.mapping label members, rest)
  let bare := if hasMarks then .ok (.emptyText label, ts) else .error .unexpectedToken
  match ts with
  | .scalar plain text :: rest => .ok (.scalar label plain text, rest)
  | .flowSequence :: rest => sequence (readFlowItems node true fuel rest)
  | .flowMapping :: rest => mapping (readFlowMembers node true fuel rest)
  | .entry :: _ => if unindented then sequence (readUnindented node fuel ts) else bare
  | .blockSequence :: rest => if block then sequence (readBlockItems node fuel rest) else bare
  | .blockMapping :: rest => if block then mapping (readBlockMembers node fuel rest) else bare
  | _ => bare

/-- A node that is nested at most `levels` deep. -/
def readNode : (levels : Nat) → NodeReader
  | 0, _, _, _ => .error .unexpectedToken
  | _ + 1, _, _, .aliasOf label :: rest => .ok (.aliasOf label, rest)
  | levels + 1, block, unindented, ts =>
    let (label, hasMarks, rest) := takeMarks ts
    readContent (readNode levels) block unindented label hasMarks rest

def readRoot (ts : List Token) : Except Fault (Parsed Node) := readNode ts.length true false ts

/-- The root of the only document, if there is any. -/
def readDocument (ts : List Token) : Except Fault (Option Node) := do
  let (root, rest) ←
    match ts with
    | [] => return none
    | .directive :: _ | .documentStart :: _ =>
      match ts.dropWhile (· = .directive) with
      | .documentStart :: rest =>
        if rest.isEmpty then pure (.emptyText none, rest)
        else readUnless [.directive, .documentStart, .documentEnd] readRoot rest
      | _ => throw .unexpectedToken
    | _ => readRoot ts
  if (rest.dropWhile (· = .documentEnd)).isEmpty then return some root else throw .furtherDocument

def read (cs : List Char) : Except Fault (Option Node) := do
  readDocument (← tokens cs)

end DesignTokens.Yaml
