import DesignTokens.Config.Reader
import DesignTokens.Proofs.WrittenNodes

/-!
Reading back what was written. The text of a configuration gives it again whatever its texts are,
with the default units in place of an empty list of them; what is written then is read back as it
is.
-/
namespace DesignTokens.Config

open Yaml (Node)

variable {root : Node} {keys : List String} {found members : List (String × Node)}

theorem readText_textNode (root : Node) (text : String) :
    readText root (textNode text) = .ok text :=
  congrArg Except.ok String.ofList_toList

theorem foldlM_members
    {step : List (String × Node) → Node × Node → Except Misfit (List (String × Node))}
    (adds : ∀ found key value, key ∈ keys → found.lookup key = none →
      step found (.scalar none true key.toList, value) = .ok (found ++ [(key, value)]))
    (known : ∀ member ∈ members, member.1 ∈ keys)
    (different : ((found ++ members).map Prod.fst).Nodup) :
    (members.map fun member =>
      (Node.scalar none true member.1.toList, member.2)).foldlM step found =
        .ok (found ++ members) := by
  induction members generalizing found with
  | nil =>
      rw [List.append_nil]
      rfl
  | cons member members ih =>
      obtain ⟨here, known⟩ := List.forall_mem_cons.1 known
      have new : found.lookup member.1 = none := by
        rw [List.lookup_eq_none_iff]
        intro other hother
        rw [List.map_append, List.map_cons, List.nodup_append] at different
        simpa using (different.2.2 _ (List.mem_map_of_mem hother) _ List.mem_cons_self).symm
      rw [List.append_cons] at different
      refine (bind_eq_ok.2 ⟨_, adds found member.1 member.2 here new, ih known different⟩).trans ?_
      rw [← List.append_cons]

/-- Members with different keys that are all known are found as they are. -/
theorem readMembers_mappingNode (known : ∀ member ∈ members, member.1 ∈ keys)
    (different : (members.map Prod.fst).Nodup) :
    readMembers root keys (mappingNode members) = .ok members := by
  refine foldlM_members (fun found key value known new => ?_) known different
  have name : readText root (.scalar none true key.toList) = .ok key :=
    congrArg Except.ok String.ofList_toList
  refine bind_eq_ok.2 ⟨key, name, ?_⟩
  rw [if_neg (by simpa using known), new]
  rfl

theorem groupUnder_of_lookup {group : List (String × String)} {key : String}
    (here : members.lookup key = some (groupNode group)) (known : ∀ member ∈ group, member.1 ∈ keys)
    (different : (group.map Prod.fst).Nodup) :
    groupUnder root members key keys =
      .ok (group.map fun member => (member.1, textNode member.2)) := by
  rw [groupUnder, here]
  refine readMembers_mappingNode (List.forall_mem_map.2 known) ?_
  rwa [List.map_map]

theorem textUnder_of_lookup {key text fallback : String}
    (here : members.lookup key = some (textNode text)) :
    textUnder root members key fallback = .ok text := by
  rw [textUnder, here]
  exact readText_textNode root text

theorem readCore_written (root : Node) (c : Config) :
    readCore root c.writtenMembers = .ok c.core := by
  have group := @groupUnder_of_lookup root ["section", "colors", "spacing", "radius"]
    c.writtenMembers [("section", c.core.top), ("colors", c.core.colours),
      ("spacing", c.core.spacing), ("radius", c.core.radius)] "core" rfl
    (by simp) (by simp)
  refine bind_eq_ok.2 ⟨_, group, bind_eq_ok.2 ⟨_, textUnder_of_lookup rfl, bind_eq_ok.2
    ⟨_, textUnder_of_lookup rfl, bind_eq_ok.2 ⟨_, textUnder_of_lookup rfl, bind_eq_ok.2
      ⟨_, textUnder_of_lookup rfl, rfl⟩⟩⟩⟩⟩

theorem readThemes_written (root : Node) (c : Config) :
    readThemes root c.writtenMembers = .ok c.themes := by
  have group := @groupUnder_of_lookup root ["light", "dark"] c.writtenMembers
    [("light", c.themes.light), ("dark", c.themes.dark)] "semantic" rfl (by simp) (by simp)
  refine bind_eq_ok.2 ⟨_, group, bind_eq_ok.2 ⟨_, textUnder_of_lookup rfl, bind_eq_ok.2
    ⟨_, textUnder_of_lookup rfl, rfl⟩⟩⟩

theorem readStarts_written (root : Node) (c : Config) :
    readStarts root c.writtenMembers = .ok c.starts := by
  have group := @groupUnder_of_lookup root ["color_prefix", "spacing_prefix", "radius_prefix"]
    c.writtenMembers [("color_prefix", c.starts.colour), ("spacing_prefix", c.starts.spacing),
      ("radius_prefix", c.starts.radius)] "naming" rfl (by simp) (by simp)
  refine bind_eq_ok.2 ⟨_, group, bind_eq_ok.2 ⟨_, textUnder_of_lookup rfl, bind_eq_ok.2
    ⟨_, textUnder_of_lookup rfl, bind_eq_ok.2 ⟨_, textUnder_of_lookup rfl, rfl⟩⟩⟩⟩

theorem readOutput_written (root : Node) (c : Config) :
    readOutput root c.writtenMembers = .ok c.output := by
  have group := @groupUnder_of_lookup root ["colors", "spacing", "radius"] c.writtenMembers
    [("colors", c.output.colours), ("spacing", c.output.spacing), ("radius", c.output.radius)]
    "output" rfl (by simp) (by simp)
  refine bind_eq_ok.2 ⟨_, group, bind_eq_ok.2 ⟨_, textUnder_of_lookup rfl, bind_eq_ok.2
    ⟨_, textUnder_of_lookup rfl, bind_eq_ok.2 ⟨_, textUnder_of_lookup rfl, rfl⟩⟩⟩⟩

theorem readUnits_written (root : Node) (c : Config) :
    readUnits root c.writtenMembers = .ok c.units := by
  have here : c.writtenMembers.lookup "units" = some (.sequence none (c.units.map textNode)) := rfl
  rw [readUnits, here]
  refine mapM_eq_ok.2 ?_
  rw [List.forall₂_map_left_iff, List.forall₂_same]
  exact fun unit _ => readText_textNode root unit

theorem ofNode_written (c : Config) : ofNode (mappingNode c.writtenMembers) = .ok c := by
  have members : readMembers (mappingNode c.writtenMembers)
      ["core", "semantic", "naming", "output", "units"] (mappingNode c.writtenMembers) =
        .ok c.writtenMembers :=
    readMembers_mappingNode (by simp [writtenMembers, groups]) (by simp [writtenMembers, groups])
  exact bind_eq_ok.2 ⟨_, members, bind_eq_ok.2 ⟨_, readCore_written _ c, bind_eq_ok.2
    ⟨_, readThemes_written _ c, bind_eq_ok.2 ⟨_, readStarts_written _ c, bind_eq_ok.2
      ⟨_, readOutput_written _ c, bind_eq_ok.2 ⟨_, readUnits_written _ c, rfl⟩⟩⟩⟩⟩⟩

theorem ofText_write (c : Config) : ofText c.write = .ok c := by
  have read : Yaml.read c.write.toList = .ok (some (mappingNode c.writtenMembers)) :=
    bind_eq_ok.2 ⟨_, tokens_write c, readDocument_writtenTokens c⟩
  rw [ofText, read]
  exact ofNode_written c

/-- A configuration is read back from its text, with the default units if it has none, and that one
from its own text as it is. -/
theorem read_write (c : Config) :
    let again : Config := if c.units = [] then { c with units := ["px"] } else c
    read c.write = .ok again ∧ read again.write = .ok again := by
  intro again
  have completed : ∀ c : Config, read c.write = .ok c.completed := by
    intro c
    rw [read, ofText_write]
  have first : c.completed = again := by
    rw [Config.completed]
    by_cases none : c.units = [] <;> simp [again, none, Dimension.defaultUnits]
  have fixed : again.completed = again := by
    rw [Config.completed]
    by_cases none : c.units = [] <;> simp [again, none]
  exact ⟨(completed c).trans (congrArg _ first), (completed again).trans (congrArg _ fixed)⟩

end DesignTokens.Config
