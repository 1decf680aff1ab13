import DesignTokens.Theme.Variant

/-!
Everything that can go wrong, by cause. A cause determines its kind, and the kind the code and the
exit status that a calling build tool relies on; the wording of each cause and the advice that goes
with it stand here once.
-/
namespace DesignTokens

/-- Why the system would not let a file be read or written. -/
inductive Refusal where
  | notFound
  | notADirectory
  | isADirectory
  | busy
  | nameTooLong
  | denied
  | invalid
  | nullByte
  | notText
  | other (detail : String)
deriving DecidableEq, Repr

def Refusal.text : Refusal → String
  | .notFound => "No such file or directory (os error 2)"
  | .notADirectory => "Not a directory (os error 20)"
  | .isADirectory => "Is a directory (os error 21)"
  | .busy => "Device or resource busy (os error 16)"
  | .nameTooLong => "File name too long (os error 36)"
  | .denied => "Permission denied (os error 13)"
  | .invalid => "Invalid argument (os error 22)"
  | .nullByte => "file name contained an unexpected NUL byte"
  | .notText => "stream did not contain valid UTF-8"
  | .other detail => detail

/-- What a file was wanted for. -/
inductive FileUse where
  | readConfig
  | readDocument
  | writeOutput
  | writeConfig
deriving DecidableEq, Repr

def FileUse.complaint : FileUse → String
  | .readConfig => "Failed to read configuration"
  | .readDocument => "Failed to read token document"
  | .writeOutput => "Failed to write output"
  | .writeConfig => "Failed to write configuration"

inductive HexFault where
  | strayCharacter
  | wrongLength
deriving DecidableEq, Repr

def HexFault.text : HexFault → String
  | .strayCharacter => "contains non-hexadecimal characters"
  | .wrongLength => "must have exactly 6 or 8 hex digits"

/-- Where a colour literal stood. -/
inductive HexUse where
  | literal
  | themed (variant : Variant) (category token : String)
  | underAlpha (token : String)
deriving DecidableEq, Repr

def HexUse.advice : HexUse → String
  | .literal => "Use #RRGGBB or #RRGGBBAA format"
  | .themed variant category token =>
    "unable to parse " ++ variant.name ++ " version of " ++ category ++ "." ++ token
  | .underAlpha token => token ++ " applies an alpha override to a non-hex value"

inductive DelimiterFault where
  | mismatch (closing opening : Char) (openedAt : Nat)
  | unexpected (closing : Char)
  | unterminatedString
  | neverClosed (opening : Char)
deriving DecidableEq, Repr

def quoteChar (c : Char) : String := "'" ++ String.singleton c ++ "'"

def quoteText (s : String) : String := "'" ++ s ++ "'"

def DelimiterFault.text : DelimiterFault → String
  | .mismatch closing opening openedAt =>
    quoteChar closing ++ " closes " ++ quoteChar opening ++ " opened at line " ++ toString openedAt
  | .unexpected closing => "unexpected " ++ quoteChar closing
  | .unterminatedString => "unterminated string literal"
  | .neverClosed opening => quoteChar opening ++ " is never closed"

inductive Failure where
  | file (path : String) (purpose : FileUse) (refusal : Refusal)
  | configSyntax (detail : String)
  | configExists
  | inputCount (found : Nat)
  | inputExtension (path : String)
  | outputExtension (path expected : String)
  | jsonSyntax (detail : String)
  | rootNotObject (found : String)
  | missingObject (key container : String)
  | categoryNotObject (variant : Variant) (category found : String)
  | themedNotLeaf (variant : Variant) (category token : String)
  | numberNotLeaf (group name : String)
  | malformedAlpha (text : String)
  | badHex (text : String) (fault : HexFault) (purpose : HexUse)
  | badNumber (text : String)
  | unresolved (token value : String)
  | cycle (chain : List String)
  | invalidName (name scope source : String)
  | duplicateName (name scope source : String)
  | unbalanced (line : Nat) (fault : DelimiterFault)
deriving DecidableEq, Repr

namespace Failure

inductive Kind where
  | file
  | config
  | input
  | extension
  | json
  | missingObject
  | layout
  | hex
  | number
  | unresolved
  | cycle
  | emission
deriving DecidableEq, Repr

def kind : Failure → Kind
  | .file .. => .file
  | .configSyntax _ | .configExists => .config
  | .inputCount _ | .inputExtension _ => .input
  | .outputExtension .. => .extension
  | .jsonSyntax _ | .rootNotObject _ => .json
  | .missingObject .. => .missingObject
  | .categoryNotObject .. | .themedNotLeaf .. | .numberNotLeaf .. | .malformedAlpha _ => .layout
  | .badHex .. => .hex
  | .badNumber _ => .number
  | .unresolved .. => .unresolved
  | .cycle _ => .cycle
  | .invalidName .. | .duplicateName .. | .unbalanced .. => .emission

def Kind.code : Kind → String
  | .file => "tokenc::io"
  | .config => "tokenc::config"
  | .input => "tokenc::arguments"
  | .extension => "tokenc::arguments::extension"
  | .json => "tokenc::json"
  | .missingObject => "tokenc::json::missing_key"
  | .layout => "tokenc::json::schema"
  | .hex => "tokenc::hex"
  | .number => "tokenc::number"
  | .unresolved => "tokenc::unresolved"
  | .cycle => "tokenc::cycle"
  | .emission => "tokenc::emit"

/-- Exit status of the program: 1 for wrong arguments, 2 for a wrong output extension, 3 for a bad
document, 4 for anything else. -/
def Kind.exitCode : Kind → Nat
  | .input => 1
  | .extension => 2
  | .json | .missingObject | .layout => 3
  | .file | .config | .hex | .number | .unresolved | .cycle | .emission => 4

def exitCode (f : Failure) : Nat := f.kind.exitCode

/-- The opening words shared by the causes of one kind. -/
def Kind.heading : Kind → String
  | .config => "Invalid configuration: "
  | .input => "Wrong arguments: "
  | .json => "Malformed input JSON: "
  | .layout => "Unexpected token layout: "
  | .cycle => "Circular token reference: "
  | .emission => "Emission error: "
  | .file | .extension | .missingObject | .hex | .number | .unresolved => ""

def detail : Failure → String
  | .file path purpose refusal =>
    "IO error with " ++ path ++ ": " ++ purpose.complaint ++ ": " ++ refusal.text
  | .configSyntax detail => detail
  | .configExists => "tokenc.yaml already exists"
  | .inputCount found => "expected exactly one input file, got " ++ toString found
  | .inputExtension path => "input " ++ path ++ " is not a .json file"
  | .outputExtension path expected =>
    "Output file " ++ path ++ " must be a ." ++ expected ++ " file"
  | .jsonSyntax detail => detail
  | .rootNotObject found => "expected a top-level object, found " ++ found
  | .missingObject key container => "Couldn't find " ++ quoteText key ++ " key in " ++ container
  | .categoryNotObject variant category found =>
    variant.name ++ " category " ++ quoteText category ++ " is " ++ found ++ ", expected an object"
  | .themedNotLeaf variant category token =>
    variant.name ++ " token " ++ category ++ "." ++ token ++ " has no type/value pair"
  | .numberNotLeaf group name => group ++ " token " ++ quoteText name ++ " has no type/value pair"
  | .malformedAlpha text => "Malformed rgba expression: " ++ text
  | .badHex text fault _ => "Invalid hex colour " ++ quoteText text ++ ": " ++ fault.text
  | .badNumber text => "Invalid numeric value " ++ quoteText text
  | .unresolved token value =>
    "couldn't lookup token for " ++ token ++ " with value " ++ value
  | .cycle chain => " -> ".intercalate chain
  | .invalidName name scope _ => quoteText name ++ " in " ++ scope ++ " is not a valid identifier"
  | .duplicateName name scope _ => "duplicate identifier " ++ quoteText name ++ " in " ++ scope
  | .unbalanced line fault =>
    "unbalanced delimiters at line " ++ toString line ++ ": " ++ fault.text

def message (f : Failure) : String := f.kind.heading ++ f.detail

def help : Failure → Option String
  | .configSyntax _ => some "Check tokenc.yaml syntax"
  | .configExists => some "Use --force to overwrite"
  | .inputCount _ => some "Pass a single path, e.g. [Resources/tokens.json]"
  | .themedNotLeaf .. => some "Semantic tokens must be nested exactly one level deep"
  | .malformedAlpha _ => some "Use rgba( \x7bColors.path.to.token\x7d, 0.5 )"
  | .badHex _ _ purpose => some purpose.advice
  | .badNumber _ => some "Use a plain number with an optional unit suffix, e.g. 16px or 0.5"
  | .cycle _ => some "Check the core tokens for aliases that point back at themselves"
  | .invalidName _ _ source => some ("generated from token name " ++ quoteText source)
  | .duplicateName _ _ source =>
    some (quoteText source ++ " sanitizes to the same name as another token")
  | .file .. | .inputExtension _ | .outputExtension .. | .jsonSyntax _ | .rootNotObject _
  | .missingObject .. | .categoryNotObject .. | .numberNotLeaf .. | .unresolved ..
  | .unbalanced .. => none

end Failure

end DesignTokens
