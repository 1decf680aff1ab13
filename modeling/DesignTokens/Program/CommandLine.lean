/-!
The command line: which words make up a command, and what is wrong with the others. Words are read
one by one. The value of an option or a positional argument is judged only when the next argument
begins or the words end, so that an unknown argument behind a bad value is what gets reported; but
what is known to be wrong with earlier ones comes before what is missing.
-/
namespace DesignTokens.Program

inductive Shell where
  | bash
  | elvish
  | fish
  | powershell
  | zsh
deriving DecidableEq, Repr

def Shell.ofName? : String → Option Shell
  | "bash" => some .bash
  | "elvish" => some .elvish
  | "fish" => some .fish
  | "powershell" => some .powershell
  | "zsh" => some .zsh
  | _ => none

inductive Command where
  | build (input output : String) (config : Option String)
  | check (input : String) (config : Option String)
  | init (directory : String) (force : Bool)
  | completions (shell : Shell)
deriving DecidableEq, Repr

/-- The commands by their names alone. -/
inductive CommandLine.Verb where
  | build
  | check
  | init
  | completions
deriving DecidableEq, Repr

/-- Why words are no command to be carried out; the first two are what the user asked for. -/
inductive Usage where
  | help (topic : Option CommandLine.Verb)
  | version
  | nothingAsked
  | unknownCommand
  | unknownArgument
  | missingArgument
  | badValue
  | needlessValue
  | repeatedArgument
deriving DecidableEq, Repr

def Usage.exitCode : Usage → Nat
  | .help _ | .version => 0
  | _ => 1

namespace CommandLine

/-- What a positional argument may be. -/
inductive ValueKind where
  | text
  | path
  | shell
deriving DecidableEq, Repr

def ValueKind.accepts : ValueKind → String → Bool
  | .text, _ => true
  | .path, value => !value.isEmpty
  | .shell, value => (Shell.ofName? value).isSome

namespace Verb

def all : List Verb := [.build, .check, .init, .completions]

def name : Verb → String
  | .build => "build"
  | .check => "check"
  | .init => "init"
  | .completions => "completions"

def ofName? (word : String) : Option Verb := all.find? (·.name = word)

def positionals : Verb → List ValueKind
  | .build => [.text, .path]
  | .check => [.text]
  | .init => [.path]
  | .completions => [.shell]

def takesConfig : Verb → Bool
  | .build | .check => true
  | .init | .completions => false

def takesForce : Verb → Bool
  | .init => true
  | .build | .check | .completions => false

end Verb

/-- An argument whose value has not been judged yet. -/
inductive Pending where
  | positional (value : String)
  | config (value : Option String)

structure Arguments where
  positionals : List String := []
  config : Option String := none
  force : Bool := false
  pending : Option Pending := none

namespace Arguments

/-- Judges the value of the last argument. -/
def settle (verb : Verb) (a : Arguments) : Except Usage Arguments :=
  match a.pending with
  | none => .ok a
  | some (.positional value) =>
    match verb.positionals[a.positionals.length]? with
    | none => .error .unknownArgument
    | some kind =>
      if kind.accepts value then
        .ok { a with positionals := a.positionals ++ [value], pending := none }
      else .error .badValue
  | some (.config none) => .error .badValue
  | some (.config (some value)) =>
    if a.config.isSome then .error .repeatedArgument
    else if ValueKind.path.accepts value then .ok { a with config := some value, pending := none }
    else .error .badValue

def takePositional (verb : Verb) (word : String) (a : Arguments) : Except Usage Arguments :=
  let pendingToo := match a.pending with
    | some (.positional _) => 1
    | _ => 0
  if a.positionals.length + pendingToo < verb.positionals.length then do
    return { ← a.settle verb with pending := some (.positional word) }
  else .error .unknownArgument

def takeConfig (verb : Verb) (value : Option String) (a : Arguments) : Except Usage Arguments := do
  let a := { ← a.settle verb with pending := some (.config value) }
  if value.isSome then a.settle verb else return a

def takeForce (verb : Verb) (a : Arguments) : Except Usage Arguments := do
  let a ← a.settle verb
  if a.force then throw .repeatedArgument else return { a with force := true }

def takeHelp (verb : Verb) (a : Arguments) : Except Usage Arguments := do
  let _ ← a.settle verb
  throw (.help (some verb))

/-- An option by its name, perhaps with a value behind an equals sign. -/
def takeLong (verb : Verb) (name : String) (value : Option String) (a : Arguments) :
    Except Usage Arguments :=
  if name = "config" && verb.takesConfig then a.takeConfig verb value
  else if name = "help" || (name = "force" && verb.takesForce) then
    if value.isSome then .error .needlessValue
    else if name = "help" then a.takeHelp verb
    else a.takeForce verb
  else .error .unknownArgument

/-- Options by their letters. Behind that of the configuration stands its value. -/
def takeShort (verb : Verb) (letters : List Char) (a : Arguments) : Except Usage Arguments :=
  match letters with
  | 'h' :: _ => a.takeHelp verb
  | 'c' :: rest =>
    if verb.takesConfig then
      match rest with
      | [] => a.takeConfig verb none
      | '=' :: value => a.takeConfig verb (some (String.ofList value))
      | value => a.takeConfig verb (some (String.ofList value))
    else .error .unknownArgument
  | _ => .error .unknownArgument

/-- A word that begins with two hyphens, without them: the name and the value. -/
def splitLong (cs : List Char) : String × Option String :=
  let name := String.ofList (cs.takeWhile (· ≠ '='))
  match cs.dropWhile (· ≠ '=') with
  | [] => (name, none)
  | _ :: value => (name, some (String.ofList value))

def takePlain (verb : Verb) (word : String) (a : Arguments) : Except Usage Arguments :=
  match a.pending with
  | some (.config none) => .ok { a with pending := some (.config (some word)) }
  | _ => a.takePositional verb word

def takeWord (verb : Verb) (word : String) (a : Arguments) : Except Usage Arguments :=
  match word.toList with
  | '-' :: '-' :: cs => let (name, value) := splitLong cs; a.takeLong verb name value
  | '-' :: c :: cs => a.takeShort verb (c :: cs)
  | _ => a.takePlain verb word

/-- All words of a command. Behind two hyphens on their own there are only positional ones. -/
def read (verb : Verb) (literal : Bool) (a : Arguments) : List String → Except Usage Arguments
  | [] => a.settle verb
  | word :: rest =>
    if literal then do read verb true (← a.takePositional verb word) rest
    else if word = "--" then read verb true a rest
    else do read verb false (← a.takeWord verb word) rest

def toCommand (verb : Verb) (a : Arguments) : Except Usage Command :=
  match verb, a.positionals with
  | .build, [input, output] => .ok (.build input output a.config)
  | .check, [input] => .ok (.check input a.config)
  | .init, [] => .ok (.init "." a.force)
  | .init, [directory] => .ok (.init directory a.force)
  | .completions, [shell] =>
    match Shell.ofName? shell with
    | some shell => .ok (.completions shell)
    | none => .error .badValue
  | _, _ => .error .missingArgument

end Arguments

def isCommandName (word : String) : Bool := word = "help" || (Verb.ofName? word).isSome

/-- What is wrong with a first word that names no command. -/
def strayWord (word : String) : Usage :=
  match word.toList with
  | '-' :: '-' :: cs =>
    let (name, value) := Arguments.splitLong cs
    if name = "help" || name = "version" then
      if value.isSome then .needlessValue else if name = "help" then .help none else .version
    else .unknownArgument
  | '-' :: 'h' :: _ => .help none
  | '-' :: 'V' :: _ => .version
  | '-' :: _ :: _ => .unknownArgument
  | _ => .unknownCommand

def helpOn (topics : List String) : Usage :=
  match topics with
  | [] => .help none
  | [topic] => if isCommandName topic then .help (Verb.ofName? topic) else .unknownCommand
  | _ => .unknownCommand

def read : List String → Except Usage Command
  | [] | ["--"] => .error .nothingAsked
  | "--" :: word :: _ =>
    .error (if isCommandName word then .unknownArgument else .unknownCommand)
  | "help" :: topics => .error (helpOn topics)
  | word :: rest =>
    match Verb.ofName? word with
    | some verb => do (← Arguments.read verb false {} rest).toCommand verb
    | none => .error (strayWord word)

end CommandLine

end DesignTokens.Program
