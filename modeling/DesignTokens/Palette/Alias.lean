import DesignTokens.Failure
import DesignTokens.Palette.Flatten
import DesignTokens.Token.Reference

/-!
Aliases within a palette. A token whose value is a reference stands for the token it refers to, and
so on until a literal is reached, the path is missing from the palette, or a path comes up again.
The walk ends because every step visits a path of the palette that was not visited before.
-/
namespace DesignTokens

/-- Where following a path leads. A cyclic chain lists the paths visited and, last, the repeated
one. -/
inductive Resolution where
  | literal (value : String)
  | dangling (missing : String)
  | cyclic (chain : List String)
deriving DecidableEq, Repr

namespace Palette

/-- The paths of the palette that are not among `visited`. -/
def unvisited (p : Palette) (visited : List String) : List String :=
  p.keys.filter fun key => key ∉ visited

theorem mem_keys_of_find? {p : Palette} {key : String} {leaf : Leaf}
    (h : p.find? key = some leaf) : key ∈ p.keys := by
  obtain ⟨e, he, -⟩ := Option.map_eq_some_iff.1 h
  have hk : e.1 = key := by simpa using List.find?_some he
  exact List.mem_map.2 ⟨e, List.mem_of_find?_eq_some he, hk⟩

theorem length_unvisited_lt {p : Palette} {visited : List String} {key : String}
    (hkey : key ∈ p.keys) (hnew : key ∉ visited) :
    (p.unvisited (key :: visited)).length < (p.unvisited visited).length := by
  unfold unvisited
  generalize p.keys = keys at hkey ⊢
  have shorter : ∀ ks : List String,
      (ks.filter fun k => k ∉ key :: visited).length ≤
        (ks.filter fun k => k ∉ visited).length := by
    intro ks
    induction ks with
    | nil => simp
    | cons k rest ih =>
        by_cases hk : k = key <;> by_cases hv : k ∈ visited <;>
          simp [hk, hv, List.filter_cons] at ih ⊢ <;> grind
  induction keys with
  | nil => simp at hkey
  | cons k rest ih =>
      by_cases hk : k = key
      · subst hk
        have := shorter rest
        simp only [List.filter_cons]
        grind
      · have := ih (by simpa [Ne.symm hk] using hkey)
        simp only [List.filter_cons]
        grind

/-- Follows the value found under the most recent of the `visited` paths, which come last first. -/
def follow (p : Palette) (root : String) (visited : List String) (value : String) : Resolution :=
  match Reference.key? root value with
  | none => .literal value
  | some key =>
    match _ : p.find? key with
    | none => .dangling key
    | some leaf =>
      if _ : key ∈ visited then .cyclic (key :: visited).reverse
      else p.follow root (key :: visited) leaf.value
termination_by (p.unvisited visited).length
decreasing_by exact length_unvisited_lt (mem_keys_of_find? ‹_›) ‹_›

def resolve (p : Palette) (root start : String) : Resolution :=
  match p.find? start with
  | none => .dangling start
  | some leaf => p.follow root [start] leaf.value

def cyclicChain? (p : Palette) (root start : String) : Option (List String) :=
  match p.resolve root start with
  | .cyclic chain => some chain
  | _ => none

/-- The leaf under `path` with the literal its value leads to; a value that leads nowhere stays. -/
def settle (p : Palette) (root path : String) (leaf : Leaf) : Leaf :=
  match p.resolve root path with
  | .literal value => { leaf with value := value }
  | _ => leaf

/-- Settles every token. A cycle anywhere is an error, and that of the first path is reported. -/
def resolveAliases (p : Palette) (root : String) : Except Failure Palette :=
  match p.keys.findSome? (p.cyclicChain? root) with
  | some chain => .error (.cycle chain)
  | none => .ok (p.mapValues (p.settle root))

end Palette

end DesignTokens
