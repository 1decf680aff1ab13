import DesignTokens.Compile

/-!
What a run tells its user: one line for each step, a right-aligned verb and a remark.
-/
namespace DesignTokens.Program

/-- A number with the noun it counts. -/
def plural (n : Nat) (one many : String) : String :=
  toString n ++ " " ++ if n = 1 then one else many

inductive Notice where
  | reading (path : String)
  | resolved (core light dark : Nat)
  /-- A token that only one of the themes has; `missing` is the other one. -/
  | skipped (name : TokenName) (missing : Variant)
  | merged (colours spacing radius : Nat)
  | generated (path : String) (constants : Nat)
  | checked (constants unpaired : Nat)
  | created (path : String)
deriving DecidableEq, Repr

namespace Notice

def verb : Notice → String
  | .reading _ => "Reading"
  | .resolved .. => "Resolved"
  | .skipped .. => "Warning"
  | .merged .. => "Merged"
  | .generated .. => "Generated"
  | .checked .. => "Checked"
  | .created _ => "Created"

def constants (n : Nat) : String := plural n "constant" "constants"

def remark : Notice → String
  | .reading path | .created path => path
  | .resolved core light dark =>
    plural core "core colour" "core colours" ++ ", " ++ toString light ++ " light and " ++
      toString dark ++ " dark"
  | .skipped name missing =>
    name.category ++ "." ++ name.token ++ " has no " ++ missing.name ++ " variant; skipped"
  | .merged colours spacing radius =>
    plural colours "colour" "colours" ++ ", " ++ toString spacing ++ " spacing and " ++
      toString radius ++ " radius"
  | .generated path n => path ++ " (" ++ constants n ++ ")"
  | .checked n 0 => constants n
  | .checked n unpaired => constants n ++ " (" ++ toString unpaired ++ " skipped)"

def verbWidth : Nat := 12

def line (n : Notice) : String :=
  String.ofList (List.replicate (verbWidth - n.verb.length) ' ') ++ n.verb ++ " " ++ n.remark

/-- What is told about resolved tokens. -/
def ofTokens (t : TokenSet) : List Notice :=
  [.resolved t.coreCount t.lightCount t.darkCount] ++
    t.colours.lightOnly.map (.skipped · .dark) ++ t.colours.darkOnly.map (.skipped · .light) ++
    [.merged t.colours.entries.length t.spacing.length t.radius.length]

end Notice

end DesignTokens.Program
