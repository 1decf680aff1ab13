import DesignTokens.Token.Dimension
import DesignTokens.Token.Leaf

/-!
Groups of sizes, such as spacings and corner radii: named numbers in ascending order of their
values, equal values in the order of their names. Values are compared by the total order of
binary64 patterns, so the order of a group never depends on how it was given.
-/
namespace DesignTokens

structure Size where
  name : String
  value : Binary64
deriving DecidableEq

namespace Size

def notAfter (a b : Size) : Bool :=
  a.value.orderKey < b.value.orderKey ||
    (a.value.orderKey = b.value.orderKey && a.name ≤ b.name)

def sort (sizes : List Size) : List Size := sizes.mergeSort notAfter

def readMember (group : String) (units : List String) (member : String × Json) :
    Except Failure Size :=
  match Leaf.ofJson? member.2 with
  | none => .error (.numberNotLeaf group member.1)
  | some leaf => do
    let value ← Dimension.read units leaf.value
    return ⟨member.1, value⟩

def readGroup (members : Table String Json) (group : String) (units : List String) :
    Except Failure (List Size) := do
  let sizes ← members.entries.mapM (readMember group units)
  return sort sizes

end Size

end DesignTokens
