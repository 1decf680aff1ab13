import DesignTokens.Proofs.Sequencing
import DesignTokens.Proofs.WrittenTokens
import DesignTokens.Yaml.Node

/-!
The tree of a written configuration. Its tokens are read into a mapping of groups, each a mapping of
texts, and the list of units behind them, with no mark on any node.
-/
namespace DesignTokens.Yaml

section Reading

variable {node : NodeReader} {tokens rest : List Token} {fuel levels : Nat}

/-- What stands for the value of a key: tokens that are read up to the next key or the end. -/
structure ReadsAs (node : NodeReader) (tokens : List Token) (value : Node) : Prop where
  begins : ∀ rest, nextIn [.key, .value, .blockEnd] (tokens ++ rest) = false
  read : ∀ rest, nextIn [.key, .blockEnd] rest = true →
    node true true (tokens ++ rest) = .ok (value, rest)

theorem readNode_scalar (levels : Nat) (block unindented plain : Bool) (text : List Char) :
    readNode (levels + 1) block unindented (.scalar plain text :: rest) =
      .ok (.scalar none plain text, rest) := rfl

theorem readsAs_scalar (plain : Bool) (text : List Char) :
    ReadsAs (readNode (levels + 1)) [.scalar plain text] (.scalar none plain text) where
  begins _ := rfl
  read _ _ := readNode_scalar levels true true plain text

/-- The names of keys with what stands under them, as tokens. -/
def keyedTokens (members : List (List Char × List Token × Node)) : List Token :=
  members.flatMap fun member => .key :: .scalar true member.1 :: .value :: member.2.1

theorem length_le_keyedTokens (members : List (List Char × List Token × Node)) :
    members.length ≤ (keyedTokens members).length := by
  induction members with
  | nil => exact Nat.le_refl 0
  | cons member members ih =>
      rw [keyedTokens, List.flatMap_cons, List.length_append, ← keyedTokens]
      simp only [List.length_cons]
      omega

theorem readBlockMembers_of_reads {members : List (List Char × List Token × Node)}
    (reads : ∀ member ∈ members, ReadsAs (readNode (levels + 1)) member.2.1 member.2.2)
    (enough : members.length < fuel) :
    readBlockMembers (readNode (levels + 1)) fuel (keyedTokens members ++ .blockEnd :: rest) =
      .ok (members.map fun member => (.scalar none true member.1, member.2.2), rest) := by
  induction members generalizing fuel with
  | nil =>
      obtain ⟨fuel, rfl⟩ := Nat.exists_eq_succ_of_ne_zero (Nat.ne_of_gt enough)
      rfl
  | cons member members ih =>
      obtain ⟨fuel, rfl⟩ := Nat.exists_eq_succ_of_ne_zero (Nat.ne_of_gt (Nat.zero_lt_of_lt enough))
      obtain ⟨⟨begins, read⟩, reads⟩ := List.forall_mem_cons.1 reads
      have next : nextIn [.key, .blockEnd] (keyedTokens members ++ .blockEnd :: rest) = true := by
        cases members <;> rfl
      have text : keyedTokens (member :: members) ++ .blockEnd :: rest =
          .key :: .scalar true member.1 :: .value ::
            (member.2.1 ++ (keyedTokens members ++ .blockEnd :: rest)) := by
        simp [keyedTokens]
      have value : readMarked .value [.key, .value, .blockEnd] (readNode (levels + 1) true true)
          (.value :: (member.2.1 ++ (keyedTokens members ++ .blockEnd :: rest))) =
            .ok (member.2.2, keyedTokens members ++ .blockEnd :: rest) := by
        rw [readMarked, if_pos rfl, readUnless, begins, if_neg Bool.false_ne_true, read _ next]
      rw [text, readBlockMembers]
      refine bind_eq_ok.2 ⟨_, readNode_scalar levels true true true member.1, ?_⟩
      refine bind_eq_ok.2 ⟨_, value, ?_⟩
      exact bind_eq_ok.2 ⟨_, ih reads (Nat.lt_of_succ_lt_succ enough), rfl⟩

theorem readNode_mapping {unindented : Bool} {members : List (List Char × List Token × Node)}
    (reads : ∀ member ∈ members, ReadsAs (readNode (levels + 1)) member.2.1 member.2.2) :
    readNode (levels + 2) true unindented
        (.blockMapping :: (keyedTokens members ++ .blockEnd :: rest)) =
      .ok (.mapping none (members.map fun member => (.scalar none true member.1, member.2.2)),
        rest) := by
  have enough : members.length <
      (Token.blockMapping :: (keyedTokens members ++ .blockEnd :: rest)).length + 1 := by
    have short := length_le_keyedTokens members
    simp only [List.length_append, List.length_cons]
    omega
  exact congrArg (Except.map _) (readBlockMembers_of_reads reads enough)

theorem readsAs_mapping {members : List (List Char × List Token × Node)}
    (reads : ∀ member ∈ members, ReadsAs (readNode (levels + 1)) member.2.1 member.2.2) :
    ReadsAs (readNode (levels + 2)) (.blockMapping :: (keyedTokens members ++ [.blockEnd]))
      (.mapping none (members.map fun member => (.scalar none true member.1, member.2.2))) where
  begins _ := rfl
  read rest _ := by
    rw [List.cons_append, List.append_assoc]
    exact readNode_mapping reads

/-- Entries that are not indented end with the next key. -/
theorem readUnindented_scalars {items : List (Bool × List Char)}
    (next : nextIn [.key, .blockEnd] rest = true) (enough : items.length < fuel) :
    readUnindented (readNode (levels + 1)) fuel
        ((items.flatMap fun item => [.entry, .scalar item.1 item.2]) ++ rest) =
      .ok (items.map fun item => .scalar none item.1 item.2, rest) := by
  induction items generalizing fuel with
  | nil =>
      obtain ⟨fuel, rfl⟩ := Nat.exists_eq_succ_of_ne_zero (Nat.ne_of_gt enough)
      cases rest with
      | nil => rfl
      | cons t rest =>
          rw [List.flatMap_nil, List.nil_append, readUnindented]
          · rfl
          · rintro _ same
            obtain ⟨rfl, -⟩ := List.cons.inj same
            cases next
  | cons item items ih =>
      obtain ⟨fuel, rfl⟩ := Nat.exists_eq_succ_of_ne_zero (Nat.ne_of_gt (Nat.zero_lt_of_lt enough))
      have later := ih (Nat.lt_of_succ_lt_succ enough)
      rw [List.flatMap_cons, List.append_assoc]
      refine bind_eq_ok.2 ⟨_, readNode_scalar levels true false item.1 item.2, ?_⟩
      exact bind_eq_ok.2 ⟨_, later, rfl⟩

theorem readsAs_entries {items : List (Bool × List Char)} (notEmpty : items ≠ []) :
    ReadsAs (readNode (levels + 2)) (items.flatMap fun item => [.entry, .scalar item.1 item.2])
      (.sequence none (items.map fun item => .scalar none item.1 item.2)) := by
  cases items with
  | nil => exact absurd rfl notEmpty
  | cons item items =>
      refine ⟨fun _ => rfl, fun rest next => ?_⟩
      have enough : (item :: items).length <
          (((item :: items).flatMap fun item => [Token.entry, .scalar item.1 item.2]) ++
            rest).length + 1 := by
        rw [List.length_append, List.length_flatMap]
        simp
        omega
      exact congrArg (Except.map _) (readUnindented_scalars next enough)

theorem readsAs_emptyList :
    ReadsAs (readNode (levels + 1)) [.flowSequence, .flowSequenceEnd] (.sequence none []) where
  begins _ := rfl
  read _ _ := rfl

end Reading

end DesignTokens.Yaml

namespace DesignTokens.Config

open Yaml Yaml.Scan

def mappingNode (members : List (String × Node)) : Node :=
  .mapping none (members.map fun member => (.scalar none true member.1.toList, member.2))

def textNode (text : String) : Node := .scalar none (formOf text.toList = .plain) text.toList

def groupNode (members : List (String × String)) : Node :=
  mappingNode (members.map fun member => (member.1, textNode member.2))

/-- What the tree of a configuration has under its keys. -/
def writtenMembers (c : Config) : List (String × Node) :=
  c.groups.map (fun group => (group.1, groupNode group.2)) ++
    [("units", .sequence none (c.units.map textNode))]

variable {levels : Nat}

theorem readsAs_group (members : List (String × String)) :
    ReadsAs (readNode (levels + 2)) (.blockMapping :: (members.flatMap memberTokens ++ [.blockEnd]))
      (groupNode members) := by
  have reads := @readsAs_mapping levels
    (members.map fun member => (member.1.toList, [scalarToken member.2.toList], textNode member.2))
    (List.forall_mem_map.2 fun member _ => readsAs_scalar _ _)
  have text : keyedTokens (members.map fun member =>
      (member.1.toList, [scalarToken member.2.toList], textNode member.2)) =
        members.flatMap memberTokens := by
    rw [keyedTokens, List.flatMap_map]
    rfl
  rw [text, List.map_map] at reads
  rw [groupNode, mappingNode, List.map_map]
  exact reads

theorem readsAs_list (units : List String) :
    ReadsAs (readNode (levels + 2)) (listTokens units) (.sequence none (units.map textNode)) := by
  rw [listTokens]
  by_cases none : units = []
  · subst none
    exact readsAs_emptyList
  · have reads := @readsAs_entries levels
      (units.map fun unit => (decide (formOf unit.toList = .plain), unit.toList))
      (by simpa using none)
    rw [List.flatMap_map, List.map_map] at reads
    rw [if_neg (by simpa using none)]
    exact reads

theorem readDocument_writtenTokens (c : Config) :
    readDocument c.writtenTokens = .ok (some (mappingNode c.writtenMembers)) := by
  let parts : List (List Char × List Token × Node) :=
    c.groups.map (fun group => (group.1.toList,
      .blockMapping :: (group.2.flatMap memberTokens ++ [.blockEnd]), groupNode group.2)) ++
    [("units".toList, listTokens c.units, .sequence none (c.units.map textNode))]
  have text : c.writtenTokens = .blockMapping :: (keyedTokens parts ++ .blockEnd :: []) := by
    simp only [writtenTokens, keyedTokens, parts, List.flatMap_append, List.flatMap_map,
      List.flatMap_singleton, List.append_assoc, List.cons_append]
    rfl
  have reads : ∀ levels, ∀ part ∈ parts, ReadsAs (readNode (levels + 1 + 1)) part.2.1 part.2.2 := by
    intro levels
    refine List.forall_mem_append.2 ⟨List.forall_mem_map.2 fun group _ => readsAs_group group.2, ?_⟩
    exact List.forall_mem_singleton.2 (readsAs_list c.units)
  have deep : ∃ levels, c.writtenTokens.length = levels + 1 + 2 := by
    refine ⟨c.writtenTokens.length - 3, ?_⟩
    rw [writtenTokens]
    simp only [List.length_cons, List.length_append]
    omega
  obtain ⟨levels, size⟩ := deep
  have root := @readNode_mapping [] (levels + 1) false parts (reads levels)
  rw [← text, ← size] at root
  have named : parts.map (fun part => (Node.scalar none true part.1, part.2.2)) =
      c.writtenMembers.map fun member => (.scalar none true member.1.toList, member.2) := by
    simp only [parts, writtenMembers, List.map_append, List.map_map, List.map_cons, List.map_nil]
    rfl
  rw [named] at root
  exact bind_eq_ok.2 ⟨_, root, rfl⟩

end DesignTokens.Config
