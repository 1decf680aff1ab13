import DesignTokens.Config.Writer
import DesignTokens.Proofs.ScannedParts

/-!
The tokens of a written configuration: for each group a mapping of its keys, and the list of units
behind them in the notation it is written in.
-/
namespace DesignTokens.Config

open Yaml Yaml.Scan

/-- The tokens of a key with a text under it. -/
def memberTokens (member : String × String) : List Token :=
  [.key, .scalar true member.1.toList, .value, scalarToken member.2.toList]

def groupTokens (group : String × List (String × String)) : List Token :=
  .key :: .scalar true group.1.toList :: .value :: .blockMapping ::
    (group.2.flatMap memberTokens ++ [.blockEnd])

def listTokens (units : List String) : List Token :=
  if units.isEmpty then [.flowSequence, .flowSequenceEnd]
  else units.flatMap fun unit => [.entry, scalarToken unit.toList]

def writtenTokens (c : Config) : List Token :=
  .blockMapping :: (c.groups.flatMap groupTokens ++
    .key :: .scalar true "units".toList :: .value :: (listTokens c.units ++ [.blockEnd]))

variable {next rest : List Char} {columns : List Nat} {marks out : List Token}

theorem startsToken_name {name : List Char} (h : KeyName name) (rest : List Char) :
    StartsToken (name ++ rest) := by
  cases name with
  | nil => exact absurd rfl h.notEmpty
  | cons c name =>
      have first := h.chars c List.mem_cons_self
      exact startsToken_cons.2 ⟨first.noGap, first.ne (by decide), first.noMark⟩

/-- The members of a group, which end with the group. -/
theorem yields_members {members : List (String × String)} (notEmpty : members ≠ [])
    (names : ∀ member ∈ members, KeyName member.1.toList) (opens : Opens 2 columns [2, 0] marks)
    (resumes : Resumes 0 next rest) (after : Yields rest 0 [0] out) :
    ∃ first, Resumes 2 (members.flatMap writeMember ++ next) first ∧
      Yields first 2 columns (marks ++ (members.flatMap memberTokens ++ .blockEnd :: out)) := by
  induction members generalizing columns marks with
  | nil => exact absurd rfl notEmpty
  | cons member members ih =>
      obtain ⟨keyName, names⟩ := List.forall_mem_cons.1 names
      have text : (member :: members).flatMap writeMember ++ next =
          spaces 2 ++ (member.1.toList ++ ':' :: ' ' :: (writeScalar (2 + 2) member.2.toList ++
            (members.flatMap writeMember ++ next))) := by
        simp [writeMember, spaces]
      rw [text]
      refine ⟨_, ⟨rfl, startsToken_name keyName _⟩, ?_⟩
      by_cases last : members = []
      · subst last
        exact yields_member keyName opens resumes (Nat.zero_le 2) after
      · obtain ⟨first, resumes, further⟩ := ih last names (.again rfl)
        exact yields_member keyName opens resumes (Nat.le_refl 2) further

theorem yields_groups {groups : List (String × List (String × String))}
    (names : ∀ group ∈ groups, KeyName group.1.toList ∧ group.2 ≠ [] ∧
      ∀ member ∈ group.2, KeyName member.1.toList)
    (starts : StartsToken next)
    (after : ∀ {columns marks}, Opens 0 columns [0] marks → Yields next 0 columns (marks ++ out))
    (opens : Opens 0 columns [0] marks) :
    Yields (groups.flatMap writeGroup ++ next) 0 columns
      (marks ++ (groups.flatMap groupTokens ++ out)) := by
  induction groups generalizing columns marks with
  | nil => exact after opens
  | cons group groups ih =>
      obtain ⟨⟨keyName, notEmpty, memberNames⟩, names⟩ := List.forall_mem_cons.1 names
      have later : StartsToken (groups.flatMap writeGroup ++ next) := by
        cases groups with
        | nil => exact starts
        | cons group groups =>
            obtain ⟨⟨keyName, -⟩, -⟩ := List.forall_mem_cons.1 names
            simp only [List.flatMap_cons, writeGroup, List.append_assoc]
            exact startsToken_name keyName _
      obtain ⟨first, resumes, further⟩ := yields_members notEmpty memberNames
        (.anew (by simp)) ⟨rfl, later⟩ (ih names (.again rfl))
      have text : (group :: groups).flatMap writeGroup ++ next = group.1.toList ++ ':' :: '\n' ::
          (group.2.flatMap writeMember ++ (groups.flatMap writeGroup ++ next)) := by
        simp [writeGroup]
      rw [text]
      have whole := yields_heading keyName opens resumes (Nat.zero_le 2) further
      simpa [groupTokens, spaces] using whole

theorem startsToken_entries (units : List String) :
    StartsToken (units.flatMap fun unit => "- ".toList ++ writeScalar 2 unit.toList) := by
  cases units with
  | nil => exact fun c none => (nomatch none)
  | cons unit units => exact startsToken_cons.2 (by decide)

theorem yields_units (units : List String) :
    Yields (units.flatMap fun unit => "- ".toList ++ writeScalar 2 unit.toList) 0 [0]
      ((units.flatMap fun unit => [.entry, scalarToken unit.toList]) ++ [.blockEnd]) := by
  induction units with
  | nil => exact yields_nil
  | cons unit units ih => exact yields_entry ⟨rfl, startsToken_entries units⟩ (Nat.le_refl 0) ih

theorem yields_writeUnits (units : List String) (opens : Opens 0 columns [0] marks) :
    Yields (writeUnits units) 0 columns
      (marks ++ .key :: .scalar true "units".toList :: .value ::
        (listTokens units ++ [.blockEnd])) := by
  have keyName : KeyName "units".toList := by decide
  have ending : Resumes 0 [] [] := ⟨rfl, fun _ none => (nomatch none)⟩
  rw [writeUnits, listTokens]
  split
  · exact yields_emptyList keyName opens ending yields_nil
  · exact yields_heading keyName opens ⟨rfl, startsToken_entries units⟩ (Nat.le_refl 0)
      (yields_units units)

theorem groups_named (c : Config) : ∀ group ∈ c.groups, KeyName group.1.toList ∧ group.2 ≠ [] ∧
    ∀ member ∈ group.2, KeyName member.1.toList := by
  simp only [groups, List.forall_mem_cons, ne_eq, reduceCtorEq, not_false_eq_true, true_and]
  decide

theorem yields_write (c : Config) : Yields c.write.toList 0 [] c.writtenTokens := by
  have starts : StartsToken (writeUnits c.units) := by
    rw [writeUnits]
    split <;> exact startsToken_cons.2 (by decide)
  have whole := yields_groups (groups_named c) starts (yields_writeUnits c.units)
    (Opens.anew fun _ none => (nomatch none))
  rw [write, String.toList_ofList]
  exact whole

theorem printable_write (c : Config) : Printable c.write.toList := by
  have named : ∀ {name}, KeyName name → Printable name := fun h d hd => (h.chars d hd).printable
  have members : ∀ group ∈ c.groups, Printable (writeGroup group) := by
    intro group hgroup
    obtain ⟨keyName, -, memberNames⟩ := groups_named c group hgroup
    refine printable_append.2 ⟨printable_append.2 ⟨named keyName, by decide⟩, ?_⟩
    refine printable_flatMap.2 fun member hmember => ?_
    exact printable_append.2 ⟨printable_append.2 ⟨printable_append.2
      ⟨by decide, named (memberNames member hmember)⟩, by decide⟩, printable_writeScalar _ _⟩
  have units : Printable (writeUnits c.units) := by
    rw [writeUnits]
    split
    · decide
    · refine printable_append.2 ⟨by decide, printable_flatMap.2 fun unit _ => ?_⟩
      exact printable_append.2 ⟨by decide, printable_writeScalar _ _⟩
  rw [write, String.toList_ofList]
  exact printable_append.2 ⟨printable_flatMap.2 members, units⟩

/-- The text of a configuration is scanned into just the tokens that stand for it. -/
theorem tokens_write (c : Config) : tokens c.write.toList = .ok c.writtenTokens := by
  have starts : StartsToken c.write.toList := by
    have name : KeyName "core".toList := by decide
    rw [write, String.toList_ofList]
    simp only [groups, List.flatMap_cons, writeGroup, List.append_assoc]
    exact startsToken_name name _
  exact tokens_of_yields (printable_write c) starts (yields_write c)

end DesignTokens.Config
