import DesignTokens.Program.CommandLine

/-!
Texts about the program itself: its version, what its commands are and what is wrong with a command
line, and the scripts by which shells complete the names of the commands. A page of help says what
something is for, how it is used and, in aligned rows, what its parts mean.
-/
namespace DesignTokens.Program

def programName : String := "tokenc"

def versionText : String := programName ++ " 0.4.0"

/-- Names with what they mean. -/
abbrev Glossary := List (String × String)

/-- One line for each name, the meanings below each other. -/
def Glossary.lines (g : Glossary) : List String :=
  let width := g.foldl (fun width (name, _) => max width name.length) 0
  g.map fun (name, meaning) =>
    "  " ++ name ++ String.ofList (List.replicate (width - name.length) ' ') ++ "  " ++ meaning

structure HelpPage where
  purpose : String
  /-- What stands behind the name of the program. -/
  usage : String
  sections : List (String × Glossary)

def HelpPage.usageLine (p : HelpPage) : String := "Usage: " ++ programName ++ " " ++ p.usage

def HelpPage.text (p : HelpPage) : String :=
  let sections := p.sections.flatMap fun (title, glossary) =>
    "" :: (title ++ ":") :: glossary.lines
  String.join ((p.purpose :: "" :: p.usageLine :: sections).map (· ++ "\n"))

namespace CommandLine.Verb

def purpose : Verb → String
  | .build => "Generate constants from a design-token document"
  | .check => "Resolve a token document without writing output"
  | .init => "Write a default tokenc.yaml"
  | .completions => "Generate shell completions"

def usage : Verb → String
  | .build => "build [OPTIONS] <INPUT> <OUTPUT>"
  | .check => "check [OPTIONS] <INPUT>"
  | .init => "init [OPTIONS] [PATH]"
  | .completions => "completions <SHELL>"

def inputMeaning : String :=
  "Token document, as a path or a one-element list \x60[path/to/tokens.json]\x60"

def arguments : Verb → Glossary
  | .build => [("<INPUT>", inputMeaning), ("<OUTPUT>", "Generated source file to write")]
  | .check => [("<INPUT>", inputMeaning)]
  | .init => [("[PATH]", "Directory to write into (default: current directory) [default: .]")]
  | .completions => [("<SHELL>",
      "Shell to generate completions for [possible values: bash, elvish, fish, powershell, zsh]")]

def helpOption : String × String := ("-h, --help", "Print help")

def configOption : String × String :=
  ("-c, --config <CONFIG>", "Configuration file (default: tokenc.yaml next to the input)")

def options : Verb → Glossary
  | .build | .check => [configOption, helpOption]
  | .init => [("    --force", "Overwrite existing tokenc.yaml"), helpOption]
  | .completions => [helpOption]

def page (verb : Verb) : HelpPage where
  purpose := verb.purpose
  usage := verb.usage
  sections := [("Arguments", verb.arguments), ("Options", verb.options)]

end CommandLine.Verb

open CommandLine (Verb)

def commands : Glossary :=
  Verb.all.map (fun verb => (verb.name, verb.purpose)) ++
    [("help", "Print this message or the help of the given subcommand(s)")]

def overview : HelpPage where
  purpose := "A compiler that turns design-token JSON into generated source constants"
  usage := "<COMMAND>"
  sections := [("Commands", commands),
    ("Options", [Verb.helpOption, ("-V, --version", "Print version")])]

def Usage.complaint : Usage → Option String
  | .help _ | .version | .nothingAsked => none
  | .unknownCommand => some "unrecognized subcommand"
  | .unknownArgument => some "unexpected argument found"
  | .missingArgument => some "a required argument was not provided"
  | .badValue => some "an argument has no valid value"
  | .needlessValue => some "an option takes no value"
  | .repeatedArgument => some "an argument cannot be used multiple times"

/-- What is printed in answer to a request for information. -/
def Usage.answer? : Usage → Option String
  | .help topic => some (topic.elim overview Verb.page).text
  | .version => some (versionText ++ "\n")
  | _ => none

def Usage.text (usage : Usage) : String :=
  match usage.complaint with
  | some complaint => "error: " ++ complaint ++ "\n\n" ++ overview.usageLine ++ "\n"
  | none => overview.text

def Shell.script (shell : Shell) : String :=
  let names := " ".intercalate (commands.map Prod.fst)
  match shell with
  | .bash => "complete -W '" ++ names ++ "' tokenc\n"
  | .elvish =>
    "set edit:completion:arg-completer[tokenc] = \x7b|@words| put " ++ names ++ " \x7d\n"
  | .fish => "complete -c tokenc -f -a '" ++ names ++ "'\n"
  | .powershell =>
    "Register-ArgumentCompleter -Native -CommandName tokenc -ScriptBlock \x7b '" ++ names ++
      "' -split ' ' \x7d\n"
  | .zsh => "#compdef tokenc\n_arguments '1:command:(" ++ names ++ ")'\n"

end DesignTokens.Program
