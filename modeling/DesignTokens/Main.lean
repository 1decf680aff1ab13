import DesignTokens.Program.Help
import DesignTokens.Program.Run

/-!
The program on a real disk. Notices and complaints go to the standard error stream.
-/
namespace DesignTokens.Main

open Program

def refusalOf : IO.Error → Refusal
  | .noFileOrDirectory .. => .notFound
  | .inappropriateType _ 20 _ => .notADirectory
  | .inappropriateType _ 21 _ => .isADirectory
  | .resourceBusy .. => .busy
  | .permissionDenied .. => .denied
  | .invalidArgument _ 36 _ => .nameTooLong
  | .invalidArgument .. => .invalid
  | e => .other (toString e)

def attempt (action : IO α) : IO (Except Refusal α) := do
  try return .ok (← action) catch e => return .error (refusalOf e)

def succeeds (action : IO Unit) : IO Bool := do
  return (← attempt action).toBool

/-- What the disk knows of a path, which may be nothing. -/
def status? (path : String) : IO (Option IO.FS.Metadata) := do
  return (← attempt ((← IO.currentDir) / path).metadata).toOption

def readText (path : String) : IO (Except Refusal String) := do
  match ← attempt (IO.FS.readBinFile path) with
  | .ok bytes => return (String.fromUTF8? bytes).elim (.error .notText) .ok
  | .error refusal => return .error refusal

def newFileRights : IO.FileRight :=
  ⟨⟨true, true, false⟩, ⟨true, false, false⟩, ⟨true, false, false⟩⟩

/-- What the user may do with a file. The library tells no more about its permissions, so nothing
is granted to others. -/
def ownRights (path : String) : IO IO.FileRight := do
  let reads ← succeeds do let _ ← IO.FS.Handle.mk path .read
  let writes ← succeeds do let _ ← IO.FS.Handle.mk path .readWrite
  return ⟨⟨reads, writes, false⟩, {}, {}⟩

/-- A name in the directory of the file that a path names. -/
def nameBeside (path : String) : IO String := do
  return Path.join (Path.directoryOf path) (".tokens-" ++ toString (← IO.rand 0 999999999))

/-- Makes a file beside the one that a path names, which then takes the other's place; if it cannot
it is removed again. -/
def moveIntoPlace (path text : String) (rights : IO.FileRight) : IO Unit := do
  let draft ← nameBeside path
  let handle ← IO.FS.Handle.mk draft .writeNew
  try
    IO.setAccessRights draft rights
    handle.putStr text
    handle.flush
    IO.FS.rename draft path
  catch e =>
    discard (attempt (IO.FS.removeFile draft))
    throw e

/-- Gives the permissions of a replaced file back to its path. They can only be had together with
that file, so it is given the text and moved to the path once more. -/
def restore (replaced path text : String) : IO Unit := do
  IO.FS.writeFile replaced text
  IO.FS.rename replaced path

/-- A plain file that is replaced, if it has no other name, is kept under a second one until its
permissions are back. -/
def replaceText (path text : String) : IO (Except Refusal Unit) := attempt do
  if (← status? path).isNone then moveIntoPlace path text newFileRights
  else
    let entry ← ((← IO.currentDir) / path).symlinkMetadata
    let kept ← nameBeside path
    let linked ← pure (entry.type == .file && entry.numLinks == 1) <&&>
      succeeds (IO.FS.hardLink path kept)
    try
      moveIntoPlace path text (← ownRights path)
      if linked then discard (attempt (restore kept path text))
    finally
      if linked then discard (attempt (IO.FS.removeFile kept))

instance : Workspace IO where
  directory := do return (← IO.currentDir).toString
  isFile path := do return (← status? path).any (·.type == .file)
  isPresent path := do return (← status? path).isSome
  readText := readText
  writeText path text := attempt (IO.FS.writeFile path text)
  replaceText := replaceText
  notify notice := IO.eprintln notice.line

def report (failure : Failure) : IO Unit := do
  IO.eprintln (failure.kind.code ++ ": " ++ failure.message)
  for advice in failure.help do IO.eprintln ("  help: " ++ advice)

def finish (command : Command) : IO Unit :=
  match command with
  | .completions shell => IO.print shell.script
  | _ => return ()

def runWords (words : List String) : IO UInt32 := do
  match CommandLine.read words with
  | .error usage =>
    match usage.answer? with
    | some answer => IO.print answer
    | none => IO.eprint usage.text
    return usage.exitCode.toUInt32
  | .ok command =>
    match ← (run command : Attempt IO Unit) with
    | .ok () =>
      finish command
      return 0
    | .error failure =>
      report failure
      return failure.exitCode.toUInt32

end DesignTokens.Main

def main (words : List String) : IO UInt32 := DesignTokens.Main.runWords words
