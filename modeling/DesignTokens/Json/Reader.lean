import DesignTokens.Json.Number
import DesignTokens.Json.Text

/-!
Reading JSON text: one value, with white space around it and nothing else. Arrays and objects may
be nested up to 127 levels deep.
-/
namespace DesignTokens.Json

def isSpace (c : Char) : Bool := c = ' ' || c = '\n' || c = '\t' || c = '\r'

def skipSpace (cs : List Char) : List Char := cs.dropWhile isSpace

/-- Items up to the closing bracket, the first of them still unread. -/
def readItems (value : List Char → Step Json) :
    (fuel : Nat) → List Char → Except SyntaxFault (List Json × List Char)
  | 0, _ => .error .endOfText
  | fuel + 1, cs => do
    let (item, rest) ← value cs
    match skipSpace rest with
    | ',' :: rest =>
      let (items, rest) ← readItems value fuel rest
      return (item :: items, rest)
    | ']' :: rest => return ([item], rest)
    | c :: _ => .error (.unexpected c)
    | [] => .error .endOfText

def readMember (value : List Char → Step Json) (cs : List Char) :
    Except SyntaxFault ((String × Json) × List Char) :=
  match skipSpace cs with
  | '"' :: rest => do
    let (key, rest) ← readText rest
    match skipSpace rest with
    | ':' :: rest =>
      let (item, rest) ← value rest
      return ((String.ofList key, item), rest)
    | c :: _ => .error (.unexpected c)
    | [] => .error .endOfText
  | c :: _ => .error (.unexpected c)
  | [] => .error .endOfText

/-- Members up to the closing brace, the first of them still unread. -/
def readMembers (value : List Char → Step Json) :
    (fuel : Nat) → List Char → Except SyntaxFault (List (String × Json) × List Char)
  | 0, _ => .error .endOfText
  | fuel + 1, cs => do
    let (member, rest) ← readMember value cs
    match skipSpace rest with
    | ',' :: rest =>
      let (members, rest) ← readMembers value fuel rest
      return (member :: members, rest)
    | '}' :: rest => return ([member], rest)
    | c :: _ => .error (.unexpected c)
    | [] => .error .endOfText

def readArray (value : List Char → Step Json) (cs : List Char) : Step Json :=
  match skipSpace cs with
  | ']' :: rest => .ok (.array [], rest)
  | _ => (readItems value cs.length cs).map fun (items, rest) => (.array items, rest)

def readObject (value : List Char → Step Json) (cs : List Char) : Step Json :=
  match skipSpace cs with
  | '}' :: rest => .ok (.object [], rest)
  | _ => (readMembers value cs.length cs).map fun (members, rest) => (.object members, rest)

def readNumber (negative : Bool) (cs : List Char) : Step Json :=
  match takeNumber? cs with
  | none => .error .badNumber
  | some (parts, rest) =>
    if parts.inRange then
      let digits := cs.take (cs.length - rest.length)
      .ok (.number (String.ofList (if negative then '-' :: digits else digits)), rest)
    else .error .numberOutOfRange

/-- One value, what it nests being read by `nested` if anything may be nested at all. -/
def readWith (nested : Option (List Char → Step Json)) (cs : List Char) : Step Json :=
  match skipSpace cs with
  | [] => .error .endOfText
  | 'n' :: 'u' :: 'l' :: 'l' :: rest => .ok (.null, rest)
  | 't' :: 'r' :: 'u' :: 'e' :: rest => .ok (.bool true, rest)
  | 'f' :: 'a' :: 'l' :: 's' :: 'e' :: rest => .ok (.bool false, rest)
  | '"' :: rest => (readText rest).map fun (text, rest) => (.string (String.ofList text), rest)
  | '[' :: rest => nested.elim (.error .tooDeep) (readArray · rest)
  | '{' :: rest => nested.elim (.error .tooDeep) (readObject · rest)
  | '-' :: rest => readNumber true rest
  | c :: rest => if c.isDigit then readNumber false (c :: rest) else .error (.unexpected c)

/-- One value in which arrays and objects are nested at most `levels` deep. -/
def readValue : (levels : Nat) → List Char → Step Json
  | 0 => readWith none
  | levels + 1 => readWith (some (readValue levels))

def maxNesting : Nat := 127

def read (cs : List Char) : Except SyntaxFault Json := do
  let (value, rest) ← readValue maxNesting cs
  if (skipSpace rest).isEmpty then return value else .error .trailing

end DesignTokens.Json
