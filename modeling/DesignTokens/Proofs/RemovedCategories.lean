import DesignTokens.Naming.Category
import DesignTokens.Proofs.AsciiFolding

/-!
Taking the name of a category out of the name of a token. Its places are those that a search byte by
byte finds in copies of both names with small letters. Each of them begins and ends between two
characters of the name, so the name is a row of kept parts and occurrences, and what is removed are
the occurrences from the left that do not overlap.
-/
namespace DesignTokens

namespace Text

def utf8 (cs : List Char) : List UInt8 := cs.flatMap String.utf8EncodeChar

section Bytes
variable {word text : List Char}

theorem utf8_append (a b : List Char) : utf8 (a ++ b) = utf8 a ++ utf8 b := List.flatMap_append

theorem utf8_cons (c : Char) (cs : List Char) :
    utf8 (c :: cs) = String.utf8EncodeChar c ++ utf8 cs := List.flatMap_cons

theorem length_utf8 (cs : List Char) : (utf8 cs).length = (String.ofList cs).utf8ByteSize := by
  induction cs with
  | nil => rfl
  | cons c rest ih =>
      rw [utf8_cons, List.length_append, ih, String.length_utf8EncodeChar, String.ofList_cons,
        String.utf8ByteSize_append, String.utf8ByteSize_singleton]

theorem utf8_eq_nil {cs : List Char} : utf8 cs = [] ↔ cs = [] := by
  cases cs with
  | nil => simp [utf8]
  | cons c rest => simp [utf8_cons, String.utf8EncodeChar_ne_nil]

theorem length_utf8_foldAscii (cs : List Char) :
    (utf8 (foldAscii cs)).length = (utf8 cs).length := by
  rw [length_utf8, length_utf8, utf8ByteSize_foldAscii]

theorem prefix_of_utf8_prefix (h : utf8 word <+: utf8 text) : word <+: text := by
  obtain ⟨rest, same⟩ := h
  refine List.isPrefix_of_utf8Encode_append_eq_utf8Encode rest.toByteArray ?_
  rw [List.utf8Encode, List.utf8Encode, ← List.toByteArray_append]
  exact congrArg List.toByteArray same

/-- Beginnings of a text that take the same space are the same. -/
theorem append_inj_of_utf8_length {a b c d : List Char} (length : (utf8 a).length = (utf8 b).length)
    (same : a ++ c = b ++ d) : a = b ∧ c = d := by
  induction a generalizing b with
  | nil =>
      obtain rfl := utf8_eq_nil.1 (List.eq_nil_of_length_eq_zero length.symm)
      exact ⟨rfl, same⟩
  | cons x a ih =>
      cases b with
      | nil => exact absurd (utf8_eq_nil.1 (List.eq_nil_of_length_eq_zero length)) (by simp)
      | cons y b =>
          obtain ⟨rfl, others⟩ := List.cons.inj same
          rw [utf8_cons, utf8_cons, List.length_append, List.length_append] at length
          obtain ⟨rfl, rest⟩ := ih (Nat.add_left_cancel length) others
          exact ⟨rfl, rest⟩

/-- The bytes of a word occur in the bytes of a text only where its characters do: what begins a
word never stands inside another character. -/
theorem split_of_utf8_prefix {place : Nat} (present : word ≠ [])
    (h : utf8 word <+: (utf8 text).drop place) :
    ∃ before after, text = before ++ word ++ after ∧ (utf8 before).length = place := by
  induction text generalizing place with
  | nil =>
      rw [utf8_eq_nil.2 rfl, List.drop_nil, List.prefix_nil, utf8_eq_nil] at h
      exact absurd h present
  | cons c text ih =>
      rcases Nat.eq_zero_or_pos place with rfl | inside
      · obtain ⟨after, same⟩ := prefix_of_utf8_prefix h
        exact ⟨[], after, same.symm, rfl⟩
      · rw [utf8_cons, List.drop_append] at h
        by_cases behind : (String.utf8EncodeChar c).length ≤ place
        · rw [List.drop_eq_nil_of_le behind, List.nil_append] at h
          obtain ⟨before, after, rfl, length⟩ := ih h
          refine ⟨c :: before, after, rfl, ?_⟩
          rw [utf8_cons, List.length_append]
          omega
        · obtain ⟨w, rest, rfl⟩ := List.exists_cons_of_ne_nil present
          obtain ⟨tail, same⟩ := h
          have within : place < (String.utf8EncodeChar c).length := Nat.lt_of_not_le behind
          have begins : 0 < (String.utf8EncodeChar w).length := by
            rw [String.length_utf8EncodeChar]
            exact w.utf8Size_pos
          have byte : (String.utf8EncodeChar w)[0] = (String.utf8EncodeChar c)[place] := by
            have left : 0 < ((String.utf8EncodeChar c).drop place).length := by
              rw [List.length_drop]
              omega
            have heads : (utf8 (w :: rest) ++ tail)[0]? = _ :=
              congrArg (fun bytes => bytes[0]?) same
            rw [utf8_cons, List.append_assoc, List.getElem?_append_left begins,
              List.getElem?_append_left left, List.getElem?_drop, Nat.add_zero,
              List.getElem?_eq_getElem begins, List.getElem?_eq_getElem within] at heads
            exact Option.some.inj heads
          have first : (String.utf8EncodeChar c)[place].IsUTF8FirstByte := by
            rw [← byte, UInt8.isUTF8FirstByte_getElem_utf8EncodeChar]
          rw [UInt8.isUTF8FirstByte_getElem_utf8EncodeChar] at first
          omega

end Bytes

/-- In copies with small letters the word stands at a place of the text, counted in bytes. -/
def FoundAt (word text : List Char) (place : Nat) : Prop :=
  utf8 (foldAscii word) <+: (utf8 (foldAscii text)).drop place

instance (word text : List Char) (place : Nat) : Decidable (FoundAt word text place) :=
  inferInstanceAs (Decidable (utf8 (foldAscii word) <+: (utf8 (foldAscii text)).drop place))

section Places
variable {word text : List Char} {place : Nat}

theorem foundAt_append {occurrence : List Char} (same : foldAscii occurrence = foldAscii word)
    (before after : List Char) :
    FoundAt word (before ++ occurrence ++ after) (utf8 before).length := by
  rw [FoundAt, List.append_assoc, foldAscii_append, utf8_append, foldAscii_append, same,
    utf8_append, ← length_utf8_foldAscii, List.drop_left]
  exact List.prefix_append _ _

/-- A place is one of the text itself, with an occurrence of the word in some case behind it. -/
theorem foundAt_iff (present : word ≠ []) :
    FoundAt word text place ↔ ∃ before occurrence after, text = before ++ occurrence ++ after ∧
      foldAscii occurrence = foldAscii word ∧ (utf8 before).length = place := by
  constructor
  · intro found
    have folded : foldAscii word ≠ [] := by simpa [foldAscii] using present
    obtain ⟨before', after', split, length⟩ := split_of_utf8_prefix folded found
    obtain ⟨front, after, rfl, hfront, -⟩ := List.map_eq_append_iff.1 split
    obtain ⟨before, occurrence, rfl, rfl, same⟩ := List.map_eq_append_iff.1 hfront
    exact ⟨before, occurrence, after, rfl, same, (length_utf8_foldAscii before) ▸ length⟩
  · rintro ⟨before, occurrence, after, rfl, same, rfl⟩
    exact foundAt_append same before after

theorem foundAt_zero_iff (present : word ≠ []) :
    FoundAt word text 0 ↔ ∃ occurrence after, text = occurrence ++ after ∧
      foldAscii occurrence = foldAscii word := by
  rw [foundAt_iff present]
  constructor
  · rintro ⟨before, occurrence, after, split, same, length⟩
    obtain rfl := utf8_eq_nil.1 (List.eq_nil_of_length_eq_zero length)
    exact ⟨occurrence, after, split, same⟩
  · rintro ⟨occurrence, after, split, same⟩
    exact ⟨[], occurrence, after, split, same, rfl⟩

theorem foundAt_of_cons {c : Char} (present : word ≠ []) (found : FoundAt word (c :: text) place) :
    FoundAt word (c :: text) 0 ∨
      ∃ later, place = (utf8 [c]).length + later ∧ FoundAt word text later := by
  obtain ⟨before, occurrence, after, split, same, rfl⟩ := (foundAt_iff present).1 found
  cases before with
  | nil => exact .inl found
  | cons d before =>
      obtain ⟨rfl, rfl⟩ := List.cons.inj split
      refine .inr ⟨(utf8 before).length, ?_, foundAt_append same before after⟩
      rw [← List.length_append, ← utf8_append]
      rfl

/-- Both ends of an occurrence lie between two characters of the text. -/
theorem isValid_of_foundAt (present : word ≠ []) (found : FoundAt word text place) :
    String.Pos.Raw.IsValid (String.ofList text) ⟨place⟩ ∧
      String.Pos.Raw.IsValid (String.ofList text)
        ⟨place + (String.ofList word).utf8ByteSize⟩ := by
  obtain ⟨before, occurrence, after, rfl, same, rfl⟩ := (foundAt_iff present).1 found
  simp only [String.Pos.Raw.isValid_iff_exists_append]
  constructor
  · refine ⟨String.ofList before, String.ofList (occurrence ++ after), ?_, ?_⟩
    · rw [← String.ofList_append, List.append_assoc]
    · rw [length_utf8]
      rfl
  · refine ⟨String.ofList (before ++ occurrence), String.ofList after, ?_, ?_⟩
    · rw [← String.ofList_append]
    · rw [← utf8ByteSize_eq_of_foldAscii_eq same, length_utf8, ← String.utf8ByteSize_append,
        ← String.ofList_append]
      rfl

end Places

/-- A text taken apart at the occurrences of a word that are found from the left, each behind the
one before it: the parts kept, each with the occurrence that ends it, and what comes last. -/
inductive Leftmost (word : List Char) :
    List Char → List (List Char × List Char) → List Char → Prop where
  | done {last} (absent : ∀ place, ¬ FoundAt word last place) : Leftmost word last [] last
  | found {before occurrence after parts last} (same : foldAscii occurrence = foldAscii word)
      (first : ∀ place < (utf8 before).length,
        ¬ FoundAt word (before ++ occurrence ++ after) place)
      (others : Leftmost word after parts last) :
      Leftmost word (before ++ occurrence ++ after) ((before, occurrence) :: parts) last

namespace Leftmost
variable {word text last text' last' : List Char} {parts parts' : List (List Char × List Char)}

theorem eq_parts (h : Leftmost word text parts last) :
    text = parts.flatMap (fun part => part.1 ++ part.2) ++ last := by
  induction h with
  | done => rfl
  | found _ _ _ ih =>
      rw [List.flatMap_cons, ih]
      simp only [List.append_assoc]

theorem same_of_mem (h : Leftmost word text parts last) :
    ∀ part ∈ parts, foldAscii part.2 = foldAscii word := by
  induction h with
  | done => simp
  | found same _ _ ih => exact List.forall_mem_cons.2 ⟨same, ih⟩

theorem byteSize_eq (h : Leftmost word text parts last) :
    (String.ofList text).utf8ByteSize =
      (String.ofList (parts.flatMap Prod.fst ++ last)).utf8ByteSize +
        parts.length * (String.ofList word).utf8ByteSize := by
  induction h with
  | done => simp
  | @found before occurrence after parts last same _ _ ih =>
      have size := utf8ByteSize_eq_of_foldAscii_eq same
      simp only [List.flatMap_cons, String.ofList_append, String.utf8ByteSize_append, size,
        List.length_cons, Nat.add_mul] at ih ⊢
      omega

theorem cons {c : Char} (present : word ≠ []) (absent : ¬ FoundAt word (c :: text) 0)
    (h : Leftmost word text parts last) :
    ∃ parts' last', Leftmost word (c :: text) parts' last' ∧
      parts'.flatMap Prod.fst ++ last' = c :: (parts.flatMap Prod.fst ++ last) := by
  cases h with
  | done absent' =>
      refine ⟨[], c :: text, .done fun place found => ?_, rfl⟩
      rcases foundAt_of_cons present found with here | ⟨later, -, further⟩
      · exact absent here
      · exact absent' later further
  | @found before occurrence after parts last same first others =>
      have moved : Leftmost word ((c :: before) ++ occurrence ++ after)
          ((c :: before, occurrence) :: parts) last := by
        refine .found same (fun place earlier found => ?_) others
        rcases foundAt_of_cons present found with here | ⟨later, rfl, further⟩
        · exact absent here
        · refine first later ?_ further
          rw [utf8_cons, List.length_append] at earlier
          simpa [utf8] using earlier
      exact ⟨_, last, moved, by simp⟩

theorem eq_cons {before occurrence after : List Char} (same : foldAscii occurrence = foldAscii word)
    (first : ∀ place < (utf8 before).length,
      ¬ FoundAt word (before ++ occurrence ++ after) place)
    (h : Leftmost word (before ++ occurrence ++ after) parts last) :
    ∃ others, parts = (before, occurrence) :: others ∧ Leftmost word after others last := by
  generalize spelled : before ++ occurrence ++ after = text at h
  cases h with
  | done absent => exact absurd (foundAt_append same before after) (spelled ▸ absent _)
  | @found before' occurrence' after' others last same' first' others' =>
      -- neither occurrence begins before the other
      have notLess : ¬ (utf8 before').length < (utf8 before).length := fun less =>
        first _ less (spelled ▸ foundAt_append same' before' after')
      have notMore : ¬ (utf8 before).length < (utf8 before').length := fun more =>
        first' _ more (spelled ▸ foundAt_append same before after)
      have length : (utf8 before).length = (utf8 before').length := by omega
      rw [List.append_assoc, List.append_assoc] at spelled
      obtain ⟨rfl, behind⟩ := append_inj_of_utf8_length length spelled
      have sameLength := length_eq_of_foldAscii_eq (same.trans same'.symm)
      obtain ⟨rfl, rfl⟩ := List.append_inj behind sameLength
      exact ⟨others, rfl, others'⟩

theorem unique (h : Leftmost word text parts last) (h' : Leftmost word text parts' last') :
    parts' = parts ∧ last' = last := by
  induction h generalizing parts' with
  | done absent =>
      cases h' with
      | done => exact ⟨rfl, rfl⟩
      | found same => exact absurd (foundAt_append same _ _) (absent _)
  | found same first _ ih =>
      obtain ⟨others, rfl, behind⟩ := h'.eq_cons same first
      obtain ⟨rfl, rfl⟩ := ih behind
      exact ⟨rfl, rfl⟩

end Leftmost

end Text

namespace Naming
open Text

theorem not_foundAt_nil {word : List Char} (present : word ≠ []) (place : Nat) :
    ¬ FoundAt word [] place := by
  intro found
  obtain ⟨before, occurrence, after, split, same, -⟩ := (foundAt_iff present).1 found
  obtain ⟨-, rfl, -⟩ : before = [] ∧ occurrence = [] ∧ after = [] := by
    simpa [and_assoc] using split.symm
  exact present (List.map_eq_nil_iff.1 same.symm)

/-- What is copied while an occurrence is being skipped is what would be copied behind it. -/
theorem copyWithout_leftmost {category : List Char} (present : category ≠ []) (skip : Nat)
    (text : List Char) :
    ∃ parts last, Leftmost category (text.drop skip) parts last ∧
      copyWithout category skip text = parts.flatMap Prod.fst ++ last := by
  fun_induction copyWithout category skip text with
  | case1 skip =>
      refine ⟨[], [], ?_, rfl⟩
      rw [List.drop_nil]
      exact .done (not_foundAt_nil present)
  | case2 c rest skip ih => exact ih
  | case3 c rest begins ih =>
      obtain ⟨after, dropped⟩ := Option.isSome_iff_exists.1 begins
      obtain ⟨occurrence, split, same⟩ := dropStartIgnoringAsciiCase?_iff.1 dropped
      obtain ⟨parts, last, others, copied⟩ := ih
      have length := length_eq_of_foldAscii_eq same
      have behind : rest.drop (category.length - 1) = after := by
        have positive := List.length_pos_iff.2 present
        have whole : (c :: rest).drop category.length = after := by
          rw [split, ← length, List.drop_left]
        rwa [← Nat.sub_add_cancel positive, List.drop_succ_cons] at whole
      rw [behind] at others
      refine ⟨([], occurrence) :: parts, last, ?_, copied⟩
      have taken : Leftmost category ([] ++ occurrence ++ after) (([], occurrence) :: parts) last :=
        .found same (by simp [utf8]) others
      rwa [List.nil_append, ← split] at taken
  | case4 c rest absent ih =>
      obtain ⟨parts, last, others, copied⟩ := ih
      have notHere : ¬ FoundAt category (c :: rest) 0 := by
        rw [foundAt_zero_iff present]
        rintro ⟨occurrence, after, split, same⟩
        refine absent ?_
        rw [split, dropStartIgnoringAsciiCase?_append same]
        rfl
      obtain ⟨parts', last', moved, kept⟩ := others.cons present notHere
      exact ⟨parts', last', moved, by rw [copied, kept]⟩

/-- A name is taken apart in one way, at the leftmost occurrences of its category, and keeps all
that is none of them. It stays as it is where the category is empty, all of the name or absent. -/
theorem removeCategory_takes_leftmost (name category : List Char) :
    (category = [] ∨ sameIgnoringAsciiCase name category →
      removeCategory name category = name) ∧
    (category ≠ [] → ¬ sameIgnoringAsciiCase name category → ∃ parts last,
      (∀ parts' last', Leftmost category name parts' last' ↔ parts' = parts ∧ last' = last) ∧
      name = parts.flatMap (fun part => part.1 ++ part.2) ++ last ∧
      (∀ part ∈ parts, foldAscii part.2 = foldAscii category) ∧
      removeCategory name category = parts.flatMap Prod.fst ++ last ∧
      (String.ofList name).utf8ByteSize =
        (String.ofList (removeCategory name category)).utf8ByteSize +
          parts.length * (String.ofList category).utf8ByteSize) ∧
    (category ≠ [] → ∀ place, FoundAt category name place →
      String.Pos.Raw.IsValid (String.ofList name) ⟨place⟩ ∧
      String.Pos.Raw.IsValid (String.ofList name)
        ⟨place + (String.ofList category).utf8ByteSize⟩) ∧
    ((∀ place, ¬ FoundAt category name place) → removeCategory name category = name) := by
  have kept : category = [] ∨ sameIgnoringAsciiCase name category →
      removeCategory name category = name := by
    intro excluded
    refine if_pos ?_
    simpa using excluded
  have copied (present : category ≠ []) (other : ¬ sameIgnoringAsciiCase name category) :
      removeCategory name category = copyWithout category 0 name := by
    refine if_neg ?_
    simpa [present] using other
  refine ⟨kept, ?_, fun present _ => isValid_of_foundAt present, ?_⟩
  · intro present other
    obtain ⟨parts, last, h, removed⟩ := copyWithout_leftmost present 0 name
    rw [List.drop_zero] at h
    rw [copied present other, removed]
    refine ⟨parts, last, fun parts' last' => ⟨h.unique, ?_⟩, h.eq_parts, h.same_of_mem, rfl,
      h.byteSize_eq⟩
    rintro ⟨rfl, rfl⟩
    exact h
  · intro absent
    by_cases excluded : category = [] ∨ sameIgnoringAsciiCase name category
    · exact kept excluded
    · obtain ⟨present, other⟩ := not_or.1 excluded
      obtain ⟨parts, last, h, removed⟩ := copyWithout_leftmost present 0 name
      rw [List.drop_zero] at h
      obtain ⟨rfl, rfl⟩ := (Leftmost.done absent).unique h
      exact (copied present other).trans removed

/-- Occurrences that overlap, in a name whose other letters are no ASCII. -/
theorem removeCategory_takes_leftmost_overlapping :
    removeCategory "éAaAtÉ".toList "aa".toList = "éAtÉ".toList ∧
    (∃ (parts : List (List Char × List Char)) (last : List Char),
      "éAaAtÉ".toList = parts.flatMap (fun part => part.1 ++ part.2) ++ last ∧
      "éAtÉ".toList = parts.flatMap Prod.fst ++ last ∧ 8 = 6 + parts.length * 2) ∧
    String.Pos.Raw.IsValid (String.ofList "éAaAtÉ".toList) ⟨2 + 2⟩ := by
  have present : "aa".toList ≠ [] := by decide
  have removed : removeCategory "éAaAtÉ".toList "aa".toList = "éAtÉ".toList := by decide
  obtain ⟨-, taken, valid, -⟩ := removeCategory_takes_leftmost "éAaAtÉ".toList "aa".toList
  obtain ⟨parts, last, -, split, -, kept, size⟩ := taken present (by decide)
  rw [removed] at kept size
  exact ⟨removed, ⟨parts, last, split, kept, size⟩, (valid present 2 (by decide)).2⟩

end Naming

end DesignTokens
