import DesignTokens.Proofs.NumeralText
import DesignTokens.Proofs.TakingApart
import DesignTokens.Token.Dimension

/-!
Which texts are dimensions. A dimension ends in the longest unit there is for it, and what stands in
front of the unit is a number and nothing else. Only the units that end the text have a say, and
how they are listed has none.
-/
namespace DesignTokens

namespace Text

/-- Choosing the shortest among a text and others. -/
theorem foldl_shortest {best shortest : List Char} {rests : List (List Char)}
    (chosen : rests.foldl (fun best rest => if rest.length < best.length then rest else best) best =
      shortest) :
    (shortest = best ∨ shortest ∈ rests) ∧ shortest.length ≤ best.length ∧
      ∀ rest ∈ rests, shortest.length ≤ rest.length := by
  induction rests generalizing best with
  | nil => simp [← chosen]
  | cons rest others ih =>
      rw [List.foldl_cons] at chosen
      by_cases shorter : rest.length < best.length
      · rw [if_pos shorter] at chosen
        obtain ⟨among, least, below⟩ := ih chosen
        exact ⟨.inr (List.mem_cons.2 among), least.trans shorter.le,
          List.forall_mem_cons.2 ⟨least, below⟩⟩
      · rw [if_neg shorter] at chosen
        obtain ⟨among, least, below⟩ := ih chosen
        exact ⟨among.imp_right (List.mem_cons_of_mem _), least,
          List.forall_mem_cons.2 ⟨least.trans (Nat.le_of_not_lt shorter), below⟩⟩

end Text

namespace Dimension

/-- Of the units that end the text the longest, or nothing if there is none. -/
structure LongestUnit (units : List String) (text : List Char) (unit : String) : Prop where
  listed : unit = "" ∨ unit ∈ units
  ends : unit.toList <:+ text
  longest : ∀ other ∈ units, other.toList <:+ text → other.length ≤ unit.length

section Units
variable {units others : List String} {text : List Char} {unit unit' : String}

theorem LongestUnit.unique (h : LongestUnit units text unit) (h' : LongestUnit units text unit') :
    unit = unit' := by
  have atMost {a b : String} (ha : LongestUnit units text a) (hb : LongestUnit units text b) :
      a.length ≤ b.length := by
    rcases ha.listed with rfl | listed
    · exact Nat.zero_le _
    · exact hb.longest a listed ha.ends
  have length : unit.toList.length = unit'.toList.length := by
    rw [String.length_toList, String.length_toList]
    exact Nat.le_antisymm (atMost h h') (atMost h' h)
  have within := List.suffix_of_suffix_length_le h.ends h'.ends length.le
  exact String.toList_inj.1 (within.eq_of_length length)

/-- The unit depends on nothing but the units that end the text. -/
theorem LongestUnit.of_same_ends
    (same : ∀ unit, unit ≠ "" → unit.toList <:+ text → (unit ∈ units ↔ unit ∈ others))
    (h : LongestUnit units text unit) : LongestUnit others text unit where
  listed := by
    by_cases empty : unit = ""
    · exact .inl empty
    · exact .inr ((same unit empty h.ends).1 (h.listed.resolve_left empty))
  ends := h.ends
  longest := by
    intro other listed ends
    by_cases empty : other = ""
    · simp [empty]
    · exact h.longest other ((same other empty ends).2 listed) ends

theorem mem_rests {rest : List Char} :
    rest ∈ ((units.map String.toList).filter (!·.isEmpty)).filterMap
        (fun unit => Text.dropEnd? unit text) ↔
      ∃ unit ∈ units, unit ≠ "" ∧ text = rest ++ unit.toList := by
  simp [Text.dropEnd?_eq_some, and_assoc]

/-- What is left without a unit stands in front of the longest. -/
theorem exists_longestUnit (units : List String) (text : List Char) :
    ∃ unit, LongestUnit units text unit ∧
      text = withoutUnit (units.map String.toList) text ++ unit.toList := by
  generalize chosen : withoutUnit (units.map String.toList) text = left
  obtain ⟨among, least, below⟩ := Text.foldl_shortest chosen
  have longest (unit : String) (split : text = left ++ unit.toList) :
      ∀ other ∈ units, other.toList <:+ text → other.length ≤ unit.length := by
    rintro other listed ⟨rest, ends⟩
    by_cases empty : other = ""
    · simp [empty]
    · have shorter := below rest (mem_rests.2 ⟨other, listed, empty, ends.symm⟩)
      have lengths := congrArg List.length (ends.trans split)
      simp only [List.length_append, String.length_toList] at lengths
      omega
  rcases among with whole | among
  · have split : text = left ++ "".toList := by simp [whole]
    exact ⟨"", ⟨.inl rfl, ⟨left, split.symm⟩, longest "" split⟩, split⟩
  · obtain ⟨unit, listed, -, split⟩ := mem_rests.1 among
    exact ⟨unit, ⟨.inr listed, ⟨left, split.symm⟩, longest unit split⟩, split⟩

end Units

section Reading
variable {units others : List String} {text unit : String} {number : List Char}

theorem read_eq (h : LongestUnit units (Text.trim text.toList) unit)
    (split : Text.trim text.toList = number ++ unit.toList) :
    read units text =
      match Binary64.readFinite? (Text.trimEnd number) with
      | some value => .ok value
      | none => .error (.badNumber text) := by
  obtain ⟨other, h', split'⟩ := exists_longestUnit units (Text.trim text.toList)
  obtain rfl := h.unique h'
  have left : withoutUnit (units.map String.toList) (Text.trim text.toList) = number :=
    List.append_cancel_right (split'.symm.trans split)
  rw [← left]
  rfl

theorem read_eq_of_same_ends
    (same : ∀ unit, unit ≠ "" → unit.toList <:+ Text.trim text.toList →
      (unit ∈ units ↔ unit ∈ others)) : read others text = read units text := by
  obtain ⟨unit, h, split⟩ := exists_longestUnit units (Text.trim text.toList)
  rw [read_eq h split, read_eq (h.of_same_ends same) split]

/-- Listing a unit that is listed already, the empty unit or one that does not end the text makes no
difference. -/
theorem read_insert {before after : List String} {new : String}
    (idle : new ∈ before ++ after ∨ new = "" ∨ ¬ new.toList <:+ Text.trim text.toList) :
    read (before ++ new :: after) text = read (before ++ after) text := by
  refine read_eq_of_same_ends ?_
  intro unit present ends
  simp only [List.mem_append, List.mem_cons]
  constructor
  · exact Or.imp_right .inr
  · rintro (listed | rfl | listed)
    · exact .inl listed
    · rcases idle with listed | empty | apart
      · exact List.mem_append.1 listed
      · exact absurd empty present
      · exact absurd ends apart
    · exact .inr listed

/-- A text is read as the number in front of its longest unit, all of it and only if it is finite.
The listed units matter as far as they end the text, in whatever order and however often. -/
theorem read_takes_longest_unit (units : List String) (text : String) :
    ∃ unit number, Text.trim text.toList = number ++ unit.toList ∧
      (∀ other, LongestUnit units (Text.trim text.toList) other ↔ other = unit) ∧
      (∀ value, read units text = .ok value ↔
        Binary64.read? (Text.trimEnd number) = some value ∧ value.isFinite) ∧
      (∀ failure, read units text = .error failure ↔
        failure = .badNumber text ∧
          ¬ ∃ value, Binary64.read? (Text.trimEnd number) = some value ∧ value.isFinite) ∧
      (∀ value, read units text = .ok value →
        ∀ c ∈ Text.trimEnd number, Binary64.isDecimalChar c) ∧
      (∀ others, (∀ unit, unit ≠ "" → unit.toList <:+ Text.trim text.toList →
        (unit ∈ units ↔ unit ∈ others)) → read others text = read units text) ∧
      (∀ others, others.Perm units → read others text = read units text) ∧
      ∀ before after new, units = before ++ after →
        (new ∈ units ∨ new = "" ∨ ¬ new.toList <:+ Text.trim text.toList) →
          read (before ++ new :: after) text = read units text := by
  obtain ⟨unit, longest, split⟩ := exists_longestUnit units (Text.trim text.toList)
  generalize withoutUnit (units.map String.toList) (Text.trim text.toList) = number at split
  have answer := read_eq longest split
  simp only [← Binary64.readFinite?_eq_some]
  refine ⟨unit, number, split, ?_, ?_, ?_, ?_, fun _ => read_eq_of_same_ends, ?_, ?_⟩
  · intro other
    exact ⟨fun h => h.unique longest, fun same => same ▸ longest⟩
  · intro value
    rw [answer]
    cases Binary64.readFinite? (Text.trimEnd number) <;> simp
  · intro failure
    rw [answer]
    cases Binary64.readFinite? (Text.trimEnd number) <;> simp [eq_comm]
  · intro value reads
    rw [answer] at reads
    cases found : Binary64.readFinite? (Text.trimEnd number) with
    | none =>
        rw [found] at reads
        cases reads
    | some number => exact Binary64.isDecimalChar_of_readFinite? found
  · intro others rearranged
    exact read_eq_of_same_ends fun unit _ _ => rearranged.mem_iff.symm
  · rintro before after new rfl
    exact read_insert

/-- A unit that ends another, the two listed the other way round, and a third one in between. -/
theorem read_takes_longest_unit_nested :
    read ["x", "px"] " 1.5e1 px\n" = .ok ⟨0x402E000000000000⟩ ∧
      read ["px", "x"] " 1.5e1 px\n" = .ok ⟨0x402E000000000000⟩ ∧
      read ["x", "p", "px"] " 1.5e1 px\n" = .ok ⟨0x402E000000000000⟩ ∧
      read ["x", "px"] "15px4" = .error (.badNumber "15px4") := by
  have reads : read ["x", "px"] " 1.5e1 px\n" = .ok ⟨0x402E000000000000⟩ := by decide +kernel
  obtain ⟨-, -, -, -, -, -, -, -, rearranged, extended⟩ :=
    read_takes_longest_unit ["x", "px"] " 1.5e1 px\n"
  refine ⟨reads, (rearranged _ (.swap _ _ _)).trans reads, ?_, by decide +kernel⟩
  exact (extended ["x"] ["px"] "p" rfl (.inr (.inr (by decide)))).trans reads

end Reading

end Dimension

end DesignTokens
