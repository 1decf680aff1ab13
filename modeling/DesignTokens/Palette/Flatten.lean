import DesignTokens.Token.Leaf
import DesignTokens.Text.Lowercase

/-!
Flattening a tree of tokens into a palette: every leaf that is reached through objects that are not
leaves themselves is entered under its path, the lowercase keys on the way to it joined by dots.
What is no object is passed over.

Paths of different leaves can be equal, and then the leaf entered last stays. A node enters its own
leaves in ascending order of their keys and is followed by its branches in descending order.
-/
namespace DesignTokens

/-- Core colour tokens by their paths. -/
abbrev Palette := Table String Leaf

mutual
def Json.weight : Json → Nat
  | .null => 0
  | .bool _ => 0
  | .number _ => 0
  | .string _ => 0
  | .array _ => 0
  | .object members => 1 + Json.membersWeight members
termination_by structural j => j

def Json.membersWeight : List (String × Json) → Nat
  | [] => 0
  | m :: rest => Json.memberWeight m + Json.membersWeight rest
termination_by structural ms => ms

def Json.memberWeight : String × Json → Nat
  | (_, value) => value.weight
termination_by structural m => m
end

theorem Json.membersWeight_insertEntry (k : String) (v : Json) (es : List (String × Json)) :
    membersWeight (Table.insertEntry k v es) ≤ v.weight + membersWeight es := by
  induction es with
  | nil => simp [Table.insertEntry, membersWeight, memberWeight]
  | cons e rest ih =>
      obtain ⟨key, value⟩ := e
      rw [Table.insertEntry]
      split
      · simp [membersWeight, memberWeight]
      · split <;> simp only [membersWeight, memberWeight] <;> omega

theorem Json.membersWeight_ofList (es : List (String × Json)) :
    membersWeight (Table.ofList es).entries ≤ membersWeight es := by
  suffices h : ∀ t : Table String Json,
      membersWeight (es.foldl (fun t e => t.insert e.1 e.2) t).entries ≤
        membersWeight t.entries + membersWeight es by
    simpa [Table.ofList, Table.empty, membersWeight] using h Table.empty
  induction es with
  | nil => simp [membersWeight]
  | cons e rest ih =>
      intro t
      obtain ⟨key, value⟩ := e
      have step := membersWeight_insertEntry key value t.entries
      have rest := ih (t.insert key value)
      simp only [Table.insert] at rest
      simp only [List.foldl_cons, Table.insert, membersWeight, memberWeight]
      omega

namespace Palette

def joinPath (before segment : String) : String :=
  if before.isEmpty then segment else before ++ "." ++ segment

/-- A node whose members are still to be visited. -/
structure Branch where
  path : String
  members : Table String Json

def Branch.weight (b : Branch) : Nat := Json.membersWeight b.members.entries

/-- The path and the members of every object below a node, in ascending order of their keys. -/
def Branch.children (b : Branch) : List Branch :=
  b.members.entries.filterMap fun (key, value) =>
    value.members?.map fun members => ⟨joinPath b.path (lowercase key), members⟩

def Branch.leaf? (b : Branch) : Option Leaf := Leaf.ofMembers? b.members

def enterLeaves (flat : Palette) (children : List Branch) : Palette :=
  children.foldl (fun flat b => b.leaf?.elim flat (flat.insert b.path)) flat

def Branch.branches (b : Branch) : List Branch := b.children.filter (·.leaf?.isNone)

def pendingWeight : List Branch → Nat
  | [] => 0
  | b :: rest => 1 + b.weight + pendingWeight rest

theorem pendingWeight_children (b : Branch) : pendingWeight b.children ≤ b.weight := by
  unfold Branch.children Branch.weight
  generalize b.members.entries = es
  induction es with
  | nil => simp [pendingWeight]
  | cons e rest ih =>
      obtain ⟨key, value⟩ := e
      cases value with
      | object members =>
          have := Json.membersWeight_ofList members
          simp only [List.filterMap_cons, Json.members?, Option.map_some, pendingWeight,
            Json.membersWeight, Json.memberWeight, Json.weight, Branch.weight] at ih ⊢
          omega
      | null | bool _ | number _ | string _ | array _ =>
          simpa [Json.members?, Json.membersWeight, Json.memberWeight, Json.weight] using ih

theorem pendingWeight_filter (p : Branch → Bool) (bs : List Branch) :
    pendingWeight (bs.filter p) ≤ pendingWeight bs := by
  induction bs with
  | nil => simp
  | cons b rest ih =>
      rw [List.filter_cons]
      split <;> simp only [pendingWeight] at ih ⊢ <;> omega

theorem pendingWeight_append (xs ys : List Branch) :
    pendingWeight (xs ++ ys) = pendingWeight xs + pendingWeight ys := by
  induction xs with
  | nil => simp [pendingWeight]
  | cons b rest ih => simp [pendingWeight, ih, Nat.add_assoc]

theorem pendingWeight_reverse (bs : List Branch) :
    pendingWeight bs.reverse = pendingWeight bs := by
  induction bs with
  | nil => rfl
  | cons b rest ih =>
      rw [List.reverse_cons, pendingWeight_append, ih]
      simp only [pendingWeight]
      omega

theorem pendingWeight_branches (b : Branch) (rest : List Branch) :
    pendingWeight (b.branches.reverse ++ rest) < pendingWeight (b :: rest) := by
  rw [pendingWeight_append, pendingWeight_reverse]
  have filtered := pendingWeight_filter (fun c => c.leaf?.isNone) b.children
  have children := pendingWeight_children b
  simp only [Branch.branches, pendingWeight] at *
  omega

/-- Visits the branches from the front, putting those found below a branch in front of the rest. -/
def visit (flat : Palette) : List Branch → Palette
  | [] => flat
  | b :: rest => visit (enterLeaves flat b.children) (b.branches.reverse ++ rest)
termination_by pending => pendingWeight pending
decreasing_by exact pendingWeight_branches b rest

def flatten (tree : Table String Json) : Palette := visit Table.empty [⟨"", tree⟩]

end Palette

end DesignTokens
