import DesignTokens.Text.Pieces

/-!
Paths as text. A path is a beginning (the root, the present directory or neither) and the names
behind it, between slashes. Empty names and single dots say nothing: they are passed over where
paths are compared and dropped at the end of what is left of a path, but kept inside it.
-/
namespace DesignTokens.Path

inductive Beginning where
  | root
  | here
  | none
deriving DecidableEq, Repr

def split (path : List Char) : Beginning × List (List Char) :=
  match path with
  | '/' :: rest => (.root, Text.pieces (· = '/') rest)
  | _ =>
    match Text.pieces (· = '/') path with
    | ['.'] :: names => (.here, names)
    | names => (.none, names)

def unsplit (beginning : Beginning) (names : List (List Char)) : List Char :=
  let rest := ['/'].intercalate names
  match beginning with
  | .root => '/' :: rest
  | .here => if names.isEmpty then ['.'] else '.' :: '/' :: rest
  | .none => rest

/-- Names that say nothing. -/
def isIdle (name : List Char) : Bool := name = [] || name = ['.']

def dropIdleEnd (names : List (List Char)) : List (List Char) :=
  (names.reverse.dropWhile isIdle).reverse

/-- The last name of a path, unless it leads to the directory above. -/
def fileName? (path : List Char) : Option (List Char) :=
  match (dropIdleEnd (split path).2).getLast? with
  | some name => if name = ['.', '.'] then none else some name
  | none => none

/-- What stands behind the last dot of the file name, unless that dot is its first character. -/
def extension? (path : List Char) : Option (List Char) :=
  match (fileName? path).bind (Text.splitLast '.') with
  | some ([], _) => none
  | some (_, extension) => some extension
  | none => none

def hasExtension (path extension : String) : Bool :=
  extension? path.toList == some extension.toList

/-- The path without its last name; empty if there is nothing in front of it. -/
def directory (path : List Char) : List Char :=
  let (beginning, names) := split path
  match beginning, dropIdleEnd names with
  | .here, [] => []
  | _, kept => unsplit beginning (dropIdleEnd kept.dropLast)

/-- The directory a file is in, the present one if the path names none. -/
def directoryOf (path : String) : String :=
  match directory path.toList with
  | [] => "."
  | directory => String.ofList directory

def isAbsolute (path : String) : Bool := path.toList.head? = some '/'

def join (directory : String) (name : String) : String :=
  if directory.isEmpty || directory.toList.getLast? = some '/' then directory ++ name
  else directory ++ "/" ++ name

/-- The names that remain behind those of `base`. -/
def dropNames? : (base names : List (List Char)) → Option (List (List Char))
  | [], names => some (names.dropWhile isIdle)
  | _ :: _, [] => none
  | b :: base, name :: names =>
    if isIdle b then dropNames? base (name :: names)
    else if isIdle name then dropNames? (b :: base) names
    else if b = name then dropNames? base names
    else none
termination_by base names => base.length + names.length

/-- A path as seen from an absolute directory above it; other paths stay as they are. -/
def shownFrom (base path : String) : String :=
  match split base.toList, split path.toList with
  | (.root, above), (.root, names) =>
    match dropNames? above names with
    | some rest =>
      match dropIdleEnd rest with
      | [] => "."
      | rest => String.ofList (unsplit .none rest)
    | none => path
  | _, _ => path

end DesignTokens.Path
