import DesignTokens.Failure
import DesignTokens.Path
import DesignTokens.Table

/-!
A tree of directories and files, with what the program does to it: look whether something is there,
read a text, write one in place, and make one beside a file that it then replaces. There are no
links. All files and all directories but the root belong to the user: of the permissions only the
owner's count, and the root takes no new files.
-/
namespace DesignTokens

/-- What a file holds. Bytes stand only for what is not UTF-8 text. -/
inductive Content where
  | text (text : String)
  | bytes (bytes : List UInt8)
deriving DecidableEq, Repr

inductive Entry where
  | directory
  | file (content : Content) (mode : Nat)
deriving DecidableEq, Repr

/-- Whether the permissions of a file let its owner read it. -/
def mayRead (mode : Nat) : Bool := mode.testBit 8

/-- Whether the permissions of a file let its owner write into it. -/
def mayWrite (mode : Nat) : Bool := mode.testBit 7

/-- The names that lead to an entry from the root. -/
abbrev Location := List String

instance : KeyOrder Location where
  irrefl := List.lt_irrefl
  trans := List.lt_trans
  connected h h' := List.le_antisymm (List.not_lt.1 h') (List.not_lt.1 h)

structure FileTree where
  entries : Table Location Entry
  /-- Where relative paths begin. -/
  here : Location

namespace FileTree

/-- The path of a location. -/
def pathOf (place : Location) : String := "/" ++ "/".intercalate place

/-- Where a path leads: to an entry, or to a name that a directory does not have, with the names
behind it. -/
inductive Spot where
  | present (place : Location) (entry : Entry)
  | absent (directory : Location) (name : String) (rest : List String)

/-- The root is always a directory. -/
def entry? (t : FileTree) : Location → Option Entry
  | [] => some .directory
  | place => t.entries.find? place

def maxNameSize : Nat := 255

def maxPathSize : Nat := 4095

def walk (t : FileTree) (place : Location) : List String → Except Refusal Spot
  | [] =>
    match t.entry? place with
    | some entry => .ok (.present place entry)
    | none => .error .notFound
  | name :: rest =>
    match t.entry? place with
    | none => .error .notFound
    | some (.file ..) => .error .notADirectory
    | some .directory =>
      if name = "" || name = "." then t.walk place rest
      else if name = ".." then t.walk place.dropLast rest
      else if maxNameSize < name.utf8ByteSize then .error .nameTooLong
      else if (t.entry? (place ++ [name])).isSome then t.walk (place ++ [name]) rest
      else .ok (.absent place name rest)

/-- The names of a path and where they begin. -/
def start (t : FileTree) (path : String) : Except Refusal (Location × List String) :=
  if path.isEmpty then .error .notFound
  else if path.toList.contains '\x00' then .error .nullByte
  else if maxPathSize < path.utf8ByteSize then .error .nameTooLong
  else
    let names := (Text.pieces (· = '/') path.toList).map String.ofList
    .ok (if Path.isAbsolute path then [] else t.here, names)

def locate (t : FileTree) (path : String) : Except Refusal Spot := do
  let (place, names) ← t.start path
  t.walk place names

def isPresent (t : FileTree) (path : String) : Bool :=
  match t.locate path with
  | .ok (.present ..) => true
  | _ => false

def isFile (t : FileTree) (path : String) : Bool :=
  match t.locate path with
  | .ok (.present _ (.file ..)) => true
  | _ => false

def readText (t : FileTree) (path : String) : Except Refusal String := do
  match ← t.locate path with
  | .present _ (.file content mode) =>
    if !mayRead mode then throw .denied
    match content with
    | .text text => return text
    | .bytes _ => throw .notText
  | .present _ .directory => throw .isADirectory
  | .absent .. => throw .notFound

/-- The permissions of a file that was not there before. -/
def newFileMode : Nat := 0o644

def insertText (t : FileTree) (place : Location) (text : String) (mode : Nat) : FileTree :=
  { t with entries := t.entries.insert place (.file (.text text) mode) }

/-- Writes into the file that a path names, which is created if it is not there. -/
def writeText (t : FileTree) (path text : String) : Except Refusal FileTree := do
  match ← t.locate path with
  | .present place (.file _ mode) =>
    if mayWrite mode then return t.insertText place text mode else throw .denied
  | .present _ .directory => throw .isADirectory
  | .absent [] _ [] => throw .denied
  | .absent directory name [] => return t.insertText (directory ++ [name]) text newFileMode
  | .absent _ _ rest => throw (if rest.all (· = "") then .isADirectory else .notFound)

/-- The directory a path leads to. -/
def locateDirectory (t : FileTree) (place : Location) (names : List String) :
    Except Refusal Location := do
  match ← t.walk place names with
  | .present place .directory => return place
  | .present _ (.file ..) => throw .notADirectory
  | .absent .. => throw .notFound

/-- The place that a file takes when it is moved to where the names of a path lead, where nothing
but a file may be. A slash at the end asks for a directory and a dot names one that is in use. -/
def target (t : FileTree) (place : Location) (names : List String) : Except Refusal Location := do
  let kept := (names.reverse.dropWhile (· = "")).reverse
  let directory ← t.locateDirectory place kept.dropLast
  match kept.getLast? with
  | none => throw .busy
  | some name =>
    if name = "." || name = ".." then throw .busy
    else if maxNameSize < name.utf8ByteSize then throw .nameTooLong
    else if kept.length < names.length then throw .notADirectory
    else
      match t.entry? (directory ++ [name]) with
      | some .directory => throw .isADirectory
      | _ => return directory ++ [name]

def remove (t : FileTree) (place : Location) : FileTree :=
  { t with entries := t.entries.erase place }

/-- Moves what is at `source` to where a path leads, in a single step. -/
def rename (t : FileTree) (source : Location) (path : String) : Except Refusal FileTree := do
  if path.toList.contains '\x00' then throw .invalid
  let (place, names) ← t.start path
  let target ← t.target place names
  match t.entry? source with
  | some entry => return { t with entries := (t.remove source).entries.insert target entry }
  | none => throw .notFound

def absolute (t : FileTree) (path : String) : String :=
  if Path.isAbsolute path then path else Path.join (pathOf t.here) path

/-- The size of the random name that a new file has at first. -/
def draftNameSize : Nat := 10

/-- The size of the absolute path of a new file in a directory. -/
def draftPathSize (t : FileTree) (directory : String) : Nat :=
  (Path.join (t.absolute directory) "").utf8ByteSize + draftNameSize

/-- Where the new file for a path stands at first, under the name `draft`: in the directory of the
file it is to replace. -/
def draftPlace (t : FileTree) (path draft : String) : Except Refusal Location := do
  let directory := Path.directoryOf path
  let (place, names) ← t.start directory
  if maxPathSize < t.draftPathSize directory then throw .nameTooLong
  let directory ← t.locateDirectory place names
  if directory.isEmpty then throw .denied
  return directory ++ [draft]

/-- The permissions of the file that a path names, or those of a new one. -/
def modeFor (t : FileTree) (path : String) : Nat :=
  match t.locate path with
  | .ok (.present _ (.file _ mode)) => mode
  | _ => newFileMode

/-- Replaces the file that a path names. The new file is made beside it and given its text and its
permissions, then it takes the other's place; if it cannot it is removed again. -/
def replaceText (t : FileTree) (draft path text : String) : Except Refusal Unit × FileTree :=
  match t.draftPlace path draft with
  | .error refusal => (.error refusal, t)
  | .ok source =>
    let drafted := t.insertText source text (t.modeFor path)
    match drafted.rename source path with
    | .ok renamed => (.ok (), renamed)
    | .error refusal => (.error refusal, drafted.remove source)

/-- A name that neither the tree nor the path has, being longer than each of theirs. -/
def unusedName (t : FileTree) (path : String) : String :=
  let names := path :: t.here ++ t.entries.keys.flatten
  String.ofList (List.replicate (names.foldr (max ·.length) 0 + 1) 'x')

end FileTree

end DesignTokens
