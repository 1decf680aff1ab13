import DesignTokens.Config.Reader
import DesignTokens.Config.Writer
import DesignTokens.Program.Argument
import DesignTokens.Program.CommandLine
import DesignTokens.Program.Notice

/-!
The commands. `check` and `build` share everything up to the compiled text, so that one predicts
the other; only the last step of `build` and of `init` writes, and it writes all or nothing.
-/
namespace DesignTokens.Program

/-- What commands need of the world around them. -/
class Workspace (m : Type → Type) where
  /-- The present directory, as an absolute path. -/
  directory : m String
  isFile : String → m Bool
  isPresent : String → m Bool
  readText : String → m (Except Refusal String)
  writeText : (path text : String) → m (Except Refusal Unit)
  /-- Puts a whole file in place of the one that is there. -/
  replaceText : (path text : String) → m (Except Refusal Unit)
  notify : Notice → m Unit

variable {m : Type → Type} [Monad m] [Workspace m]

/-- A step that may fail for a cause. -/
abbrev Attempt (m : Type → Type) := ExceptT Failure m

def fileStep (path : String) (purpose : FileUse) (step : m (Except Refusal α)) : Attempt m α := do
  match ← step with
  | .ok result => return result
  | .error refusal => throw (.file path purpose refusal)

def notify (notice : Notice) : Attempt m Unit := (Workspace.notify notice : m Unit)

def shown (path : String) : Attempt m String := do
  let here ← (Workspace.directory : m String)
  return Path.shownFrom here path

def configName : String := "tokenc.yaml"

def loadConfig (path : String) : Attempt m Config := do
  let text ← fileStep path .readConfig (Workspace.readText path)
  (Config.read text : Except Failure Config)

/-- The configuration that is asked for, or else the one beside the input, or else the default. -/
def findConfig (input : String) (asked : Option String) : Attempt m Config := do
  match asked with
  | some path => loadConfig path
  | none =>
    let path := Path.join (Path.directoryOf input) configName
    if ← (Workspace.isFile path : m Bool) then loadConfig path else return Config.default

/-- Compiles the document that an argument names, and tells about it. -/
def compileInput (argument : String) (asked : Option String) : Attempt m Compiled := do
  let input ← (inputPath argument : Except Failure String)
  let config ← findConfig input asked
  notify (.reading (← shown input))
  let source ← fileStep input .readDocument (Workspace.readText input)
  let compiled ← (compile source config : Except Failure Compiled)
  (Notice.ofTokens compiled.tokens).forM notify
  return compiled

def build (argument output : String) (asked : Option String) : Attempt m Unit := do
  (checkExtension output Swift.fileExtension : Except Failure Unit)
  let compiled ← compileInput argument asked
  fileStep output .writeOutput (Workspace.replaceText output compiled.text)
  notify (.generated (← shown output) compiled.tokens.constantCount)

def check (argument : String) (asked : Option String) : Attempt m Unit := do
  let tokens := (← compileInput argument asked).tokens
  notify (.checked tokens.constantCount tokens.colours.dropped)

def init (directory : String) (force : Bool) : Attempt m Unit := do
  let path := Path.join directory configName
  if (← (Workspace.isPresent path : m Bool)) && !force then throw .configExists
  fileStep path .writeConfig (Workspace.writeText path Config.default.write)
  notify (.created (← shown path))

def run : Command → Attempt m Unit
  | .build input output config => build input output config
  | .check input config => check input config
  | .init directory force => init directory force
  | .completions _ => return ()

end DesignTokens.Program
