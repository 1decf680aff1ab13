import DesignTokens.Proofs.Lookup
import DesignTokens.Proofs.NumeralText
import DesignTokens.Proofs.SizeOrder

/-!
Reading a group of sizes: it succeeds exactly when every member is a leaf whose value is a number,
and otherwise the first member that is none is reported. Every member is kept, and the sizes come in
ascending order of their numbers.
-/
namespace DesignTokens

namespace Dimension
variable {units : List String} {text : String}

theorem eq_badNumber_of_read {failure : Failure} (h : read units text = .error failure) :
    failure = .badNumber text := by
  dsimp only [read] at h
  split at h
  · cases h
  · exact (Except.error.inj h).symm

theorem isFinite_of_read {value : Binary64} (h : read units text = .ok value) : value.isFinite := by
  dsimp only [read] at h
  split at h
  · rename_i found
    exact Except.ok.inj h ▸ (Binary64.readFinite?_eq_some.1 found).2
  · cases h

end Dimension

namespace Size
variable {group : String} {units : List String}

theorem readMember_eq_ok {member : String × Json} {size : Size} :
    readMember group units member = .ok size ↔
      ∃ leaf value, Leaf.ofJson? member.2 = some leaf ∧
        Dimension.read units leaf.value = .ok value ∧ size = ⟨member.1, value⟩ := by
  unfold readMember
  cases Leaf.ofJson? member.2 with
  | none => simp
  | some leaf =>
      simp only [bind_eq_ok, Option.some.injEq]
      constructor
      · intro h
        obtain ⟨value, read, h⟩ := h
        exact ⟨leaf, value, rfl, read, (Except.ok.inj h).symm⟩
      · intro h
        obtain ⟨leaf, value, rfl, read, rfl⟩ := h
        exact ⟨value, read, rfl⟩

theorem readGroup_succeeds {members : Table String Json} :
    (∃ sizes, readGroup members group units = .ok sizes) ↔
      ∀ name node, members.find? name = some node →
        ∃ leaf value, Leaf.ofJson? node = some leaf ∧
          Dimension.read units leaf.value = .ok value := by
  have readable (name : String) (node : Json) :
      (∃ size, readMember group units (name, node) = .ok size) ↔
        ∃ leaf value, Leaf.ofJson? node = some leaf ∧
          Dimension.read units leaf.value = .ok value := by
    simp only [readMember_eq_ok]
    exact ⟨fun ⟨_, leaf, value, isLeaf, read, _⟩ => ⟨leaf, value, isLeaf, read⟩,
      fun ⟨leaf, value, isLeaf, read⟩ => ⟨_, leaf, value, isLeaf, read, rfl⟩⟩
  have sizes : (∃ sizes, readGroup members group units = .ok sizes) ↔
      ∃ sizes, members.entries.mapM (readMember group units) = .ok sizes := by
    simp only [readGroup, bind_eq_ok]
    exact ⟨fun ⟨_, sizes, h, _⟩ => ⟨sizes, h⟩, fun ⟨sizes, h⟩ => ⟨_, sizes, h, rfl⟩⟩
  simp only [sizes, mapM_succeeds, Prod.forall, readable, Table.find?_eq_some]

/-- What is wrong with a member of a group. -/
inductive MemberFault (group : String) (units : List String) (name : String) (node : Json) :
    Failure → Prop where
  | notLeaf (other : Leaf.ofJson? node = none) :
      MemberFault group units name node (.numberNotLeaf group name)
  | unreadable {leaf} (isLeaf : Leaf.ofJson? node = some leaf)
      (unread : ¬ ∃ value, Dimension.read units leaf.value = .ok value) :
      MemberFault group units name node (.badNumber leaf.value)

theorem readMember_eq_error {name : String} {node : Json} {failure : Failure} :
    readMember group units (name, node) = .error failure ↔
      MemberFault group units name node failure := by
  constructor
  · intro h
    unfold readMember at h
    cases isLeaf : Leaf.ofJson? node with
    | none =>
        simp only [isLeaf, Except.error.injEq] at h
        exact h ▸ .notLeaf isLeaf
    | some leaf =>
        simp only [isLeaf, bind_pure_eq_error] at h
        obtain rfl := Dimension.eq_badNumber_of_read h
        refine .unreadable isLeaf ?_
        rw [h]
        rintro ⟨_, ⟨⟩⟩
  · intro fault
    cases fault with
    | notLeaf other => simp only [readMember, other]
    | @unreadable leaf isLeaf unread =>
        simp only [readMember, isLeaf, bind_pure_eq_error]
        cases answer : Dimension.read units leaf.value with
        | ok value => exact absurd ⟨value, answer⟩ unread
        | error failure => rw [Dimension.eq_badNumber_of_read answer]

theorem readGroup_eq_error {members : Table String Json} {failure : Failure} :
    readGroup members group units = .error failure ↔
      ∃ name node, members.find? name = some node ∧
        (∀ earlier other, members.find? earlier = some other → earlier < name →
          ∃ size, readMember group units (earlier, other) = .ok size) ∧
        MemberFault group units name node failure := by
  simp only [readGroup, bind_pure_eq_error, Table.mapM_entries_eq_error, readMember_eq_error]

/-- The member, as it was read. -/
def Reads (units : List String) (member : String × Json) (size : Size) : Prop :=
  size.name = member.1 ∧ ∃ leaf, Leaf.ofJson? member.2 = some leaf ∧
    Dimension.read units leaf.value = .ok size.value

theorem readMember_eq_ok_iff_reads {member : String × Json} {size : Size} :
    readMember group units member = .ok size ↔ Reads units member size := by
  rw [readMember_eq_ok]
  constructor
  · rintro ⟨leaf, value, isLeaf, read, rfl⟩
    exact ⟨rfl, leaf, isLeaf, read⟩
  · rintro ⟨name, leaf, isLeaf, read⟩
    refine ⟨leaf, size.value, isLeaf, read, ?_⟩
    rw [← name]

theorem readGroup_eq_ok {members : Table String Json} {sizes : List Size} :
    readGroup members group units = .ok sizes ↔
      ∃ listed, List.Forall₂ (Reads units) members.entries listed ∧ sizes = sort listed := by
  simp only [readGroup, bind_eq_ok, mapM_eq_ok, readMember_eq_ok_iff_reads]
  constructor
  · rintro ⟨listed, reads, h⟩
    exact ⟨listed, reads, (Except.ok.inj h).symm⟩
  · rintro ⟨listed, reads, rfl⟩
    exact ⟨listed, reads, rfl⟩

theorem names_of_reads {members : List (String × Json)} {listed : List Size}
    (h : List.Forall₂ (Reads units) members listed) :
    listed.map name = members.map Prod.fst := by
  induction h with
  | nil => rfl
  | cons reads _ ih => rw [List.map_cons, List.map_cons, reads.1, ih]

theorem names_of_readGroup {members : Table String Json} {sizes : List Size}
    (h : readGroup members group units = .ok sizes) : (sizes.map name).Perm members.keys := by
  obtain ⟨listed, reads, rfl⟩ := readGroup_eq_ok.1 h
  rw [Table.keys, ← names_of_reads reads]
  exact (sort_perm listed).map name

theorem isFinite_of_reads {members : List (String × Json)} {listed : List Size}
    (h : List.Forall₂ (Reads units) members listed) : ∀ size ∈ listed, size.value.isFinite := by
  induction h with
  | nil => simp
  | cons reads _ ih =>
      obtain ⟨-, leaf, -, read⟩ := reads
      exact List.forall_mem_cons.2 ⟨Dimension.isFinite_of_read read, ih⟩

theorem ascending_sort (sizes : List Size) :
    (sort sizes).Pairwise fun a b => a.value.signedUnits ≤ b.value.signedUnits := by
  refine (pairwise_sort sizes).imp ?_
  intro a b ordered
  refine Binary64.signedUnits_le_of_orderKey_le ?_
  rcases notAfter_iff.1 ordered with less | ⟨same, -⟩
  · exact less.le
  · exact same.le

/-- Sizes of one value stand in the order of their names, none of which comes twice. -/
theorem pairwise_names_of_readGroup {members : Table String Json} {sizes : List Size}
    (h : readGroup members group units = .ok sizes) :
    sizes.Pairwise fun a b => a.value = b.value → a.name < b.name := by
  have distinct : (sizes.map name).Nodup :=
    (names_of_readGroup h).nodup_iff.2 (Table.nodup_of_ascending members.ascending_keys)
  obtain ⟨listed, -, rfl⟩ := readGroup_eq_ok.1 h
  have different : (sort listed).Pairwise fun a b => a.name ≠ b.name := List.pairwise_map.1 distinct
  refine (pairwise_sort listed).imp₂ ?_ different
  intro a b ordered other same
  rcases notAfter_iff.1 ordered with less | ⟨-, names⟩
  · rw [same] at less
    exact absurd less (Nat.lt_irrefl _)
  · exact lt_of_le_of_ne names other

/-- Reading keeps every member or reports the first, in the order of names, that is no leaf or holds
no number. The sizes come in the order of their numbers, which does not depend on the order they are
listed in. -/
theorem readGroup_keeps_every_member (members : Table String Json) (group : String)
    (units : List String) :
    ((∃ sizes, readGroup members group units = .ok sizes) ↔
      ∀ name node, members.find? name = some node →
        ∃ leaf value, Leaf.ofJson? node = some leaf ∧
          Dimension.read units leaf.value = .ok value) ∧
    (∀ failure, readGroup members group units = .error failure ↔
      ∃ name node, members.find? name = some node ∧
        (∀ earlier other, members.find? earlier = some other → earlier < name →
          ∃ size, Reads units (earlier, other) size) ∧
        MemberFault group units name node failure) ∧
    (∀ sizes, readGroup members group units = .ok sizes →
      (∃ listed, List.Forall₂ (Reads units) members.entries listed ∧ sizes.Perm listed) ∧
      (∀ size ∈ sizes, size.value.isFinite) ∧
      (sizes.Pairwise fun a b => a.value.signedUnits ≤ b.value.signedUnits) ∧
      sizes.Pairwise fun a b => a.value = b.value → a.name < b.name) ∧
    ∀ sizes, sort (sort sizes) = sort sizes ∧
      ∀ others, sizes.Perm others → sort sizes = sort others := by
  refine ⟨readGroup_succeeds, fun failure => ?_, fun sizes h => ?_, fun sizes => ?_⟩
  · simp only [readGroup_eq_error, readMember_eq_ok_iff_reads]
  · have names := pairwise_names_of_readGroup h
    obtain ⟨listed, reads, rfl⟩ := readGroup_eq_ok.1 h
    refine ⟨⟨listed, reads, sort_perm listed⟩, fun size hsize => ?_, ascending_sort listed, names⟩
    exact isFinite_of_reads reads size ((sort_perm listed).mem_iff.1 hsize)
  · exact ⟨sort_sort sizes, fun _ => sort_eq_of_perm⟩

/-- The two zeros apart and one of them twice, in a group that is read and in one that is not. -/
theorem readGroup_keeps_every_member_zeros :
    let leaf (value : String) := Json.object [("type", .string "size"), ("value", .string value)]
    let zeros := [("b", leaf "0px"), ("a", leaf "0"), ("c", leaf "-0 px")]
    let sizes : List Size := [⟨"c", .ofMagnitudeBits true 0⟩, ⟨"a", .zero⟩, ⟨"b", .zero⟩]
    readGroup (.ofList zeros) "Spacing" ["px"] = .ok sizes ∧ sort sizes = sizes ∧
      (sizes.Pairwise fun a b => a.value = b.value → a.name < b.name) ∧
      readGroup (.ofList (("ab", .null) :: ("d", leaf "px") :: zeros)) "Spacing" ["px"] =
        .error (.numberNotLeaf "Spacing" "ab") := by
  intro leaf zeros sizes
  have sorted : sort [⟨"a", .zero⟩, ⟨"b", .zero⟩, ⟨"c", .ofMagnitudeBits true 0⟩] = sizes :=
    sort_eq_iff.2 ⟨by decide +kernel, by decide +kernel⟩
  have run (members : Table String Json) : readGroup members "Spacing" ["px"] =
      (members.entries.mapM (readMember "Spacing" ["px"])).map sort := by
    rw [readGroup]
    cases members.entries.mapM (readMember "Spacing" ["px"]) <;> rfl
  have read : (Table.ofList zeros).entries.mapM (readMember "Spacing" ["px"]) =
      .ok [⟨"a", .zero⟩, ⟨"b", .zero⟩, ⟨"c", .ofMagnitudeBits true 0⟩] := by decide +kernel
  have unread : (Table.ofList (("ab", .null) :: ("d", leaf "px") :: zeros)).entries.mapM
      (readMember "Spacing" ["px"]) = .error (.numberNotLeaf "Spacing" "ab") := by decide +kernel
  have answer : readGroup (.ofList zeros) "Spacing" ["px"] = .ok sizes := by
    rw [run, read, ← sorted]
    rfl
  obtain ⟨-, -, kept, canonical⟩ := readGroup_keeps_every_member (.ofList zeros) "Spacing" ["px"]
  have stays : sort sizes = sizes := sorted ▸ (canonical _).1
  exact ⟨answer, stays, (kept sizes answer).2.2.2, by rw [run, unread]; rfl⟩

end Size

end DesignTokens
