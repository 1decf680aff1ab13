import DesignTokens.FileTree
import DesignTokens.Program.Run

/-!
Running commands on a tree of files instead of a disk. A run is a function of the tree and the
words of the command; it gives the tree left behind, what was told and how it ended.
-/
namespace DesignTokens.Program

structure Session where
  files : FileTree
  /-- What was told so far, in order. -/
  notices : List Notice := []

namespace Session

/-- Writes in place; a text that cannot be written leaves the files alone. -/
def writeText (path text : String) : StateM Session (Except Refusal Unit) := fun s =>
  match s.files.writeText path text with
  | .ok files => (.ok (), { s with files := files })
  | .error refusal => (.error refusal, s)

/-- The new file is first given a name that is not in use; any other would do. -/
def replaceText (path text : String) : StateM Session (Except Refusal Unit) := fun s =>
  let (result, files) := s.files.replaceText (s.files.unusedName path) path text
  (result, { s with files := files })

instance : Workspace (StateM Session) where
  directory := do return FileTree.pathOf (← get).files.here
  isFile path := do return (← get).files.isFile path
  isPresent path := do return (← get).files.isPresent path
  readText path := do return (← get).files.readText path
  writeText := writeText
  replaceText := replaceText
  notify notice := modify fun s => { s with notices := s.notices ++ [notice] }

end Session

/-- How a run ended. -/
inductive Ending where
  | unused (usage : Usage)
  | failed (failure : Failure)
  | done (command : Command)
deriving DecidableEq, Repr

def Ending.exitCode : Ending → Nat
  | .unused usage => usage.exitCode
  | .failed failure => failure.exitCode
  | .done _ => 0

structure Outcome where
  files : FileTree
  notices : List Notice
  ending : Ending

def perform (files : FileTree) (command : Command) : Outcome :=
  let (result, s) := (run command : Attempt (StateM Session) Unit) { files := files }
  match result with
  | .ok () => ⟨s.files, s.notices, .done command⟩
  | .error failure => ⟨s.files, s.notices, .failed failure⟩

def runWords (files : FileTree) (words : List String) : Outcome :=
  match CommandLine.read words with
  | .ok command => perform files command
  | .error usage => ⟨files, [], .unused usage⟩

end DesignTokens.Program
