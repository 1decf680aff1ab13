import DesignTokens.Proofs.AsciiFolding
import DesignTokens.Proofs.NumeralText
import DesignTokens.Proofs.TakingApart
import DesignTokens.Proofs.Trimming
import DesignTokens.Token.AlphaOverride

/-!
Which texts are alpha overrides. Their form is a grammar: the keyword in any case, and in
parentheses a reference and a text without a comma, with blanks wherever they do no harm.
-/
namespace DesignTokens

/-! The characters of numbers. -/

namespace Binary64

/-- A character that may stand in a number is neither blank nor a comma. -/
def Solid (c : Char) : Prop := Text.isBlank c = false ∧ c ≠ ','

instance (c : Char) : Decidable (Solid c) := inferInstanceAs (Decidable (_ ∧ _))

theorem solid_of_isDigit {c : Char} (h : isDigit c) : Solid c := by
  have ascii : c.toNat < 58 := by
    simp only [isDigit, Char.isDigit, Bool.and_eq_true, decide_eq_true_eq,
      UInt32.le_iff_toNat_le] at h
    exact Nat.lt_of_le_of_lt h.2 (by decide)
  exact Text.of_each_below (n := 58) (P := fun c => isDigit c → Solid c) (by decide) ascii h

theorem solid_of_readFinite? {cs : List Char} {x : Binary64} (h : readFinite? cs = some x) :
    ∀ c ∈ cs, Solid c := by
  have others : "+-.eE".toList.all fun c => Solid c := by decide
  intro c hc
  have number := isDecimalChar_of_readFinite? h c hc
  rw [isDecimalChar, Bool.or_eq_true, decide_eq_true_eq] at number
  refine number.elim solid_of_isDigit fun other => ?_
  exact of_decide_eq_true (List.all_eq_true.1 others c other)

end Binary64

/-! Reading. -/

namespace AlphaOverride

open Text (Blanks Trimmed foldAscii isBlank)

/-- Trimmed, the value is the keyword in any case, blanks, and in parentheses two parts, the first
more than blanks and the second without a comma. -/
def Spells (value : String) (reference alpha : List Char) : Prop :=
  ∃ word blanks,
    Text.trim value.toList = word ++ blanks ++ '(' :: reference ++ ',' :: alpha ++ [')'] ∧
      foldAscii word = keyword ∧ Blanks blanks ∧ ',' ∉ alpha ∧ Text.trim reference ≠ []

theorem arguments?_eq_some {value arguments : List Char} :
    arguments? value = some arguments ↔
      ∃ word blanks, Text.trim value = word ++ blanks ++ '(' :: arguments ++ [')'] ∧
        foldAscii word = keyword ∧ Blanks blanks := by
  have visible : isBlank '(' = false := by decide
  constructor
  · intro h
    unfold arguments? at h
    split at h
    · rename_i rest opened
      obtain ⟨behind, dropped, front⟩ := Option.map_eq_some_iff.1 opened
      obtain ⟨word, split, known⟩ := Text.dropStartIgnoringAsciiCase?_iff.1 dropped
      obtain ⟨blanks, rfl, blank⟩ := (Text.trimStart_eq_cons visible).1 front
      obtain rfl := Text.dropEnd?_eq_some.1 h
      refine ⟨word, blanks, ?_, known, blank⟩
      rw [split]
      simp
    · cases h
  · rintro ⟨word, blanks, split, known, blank⟩
    have dropped : Text.dropStartIgnoringAsciiCase? keyword (Text.trim value) =
        some (blanks ++ '(' :: (arguments ++ [')'])) := by
      rw [split, Text.dropStartIgnoringAsciiCase?_iff]
      exact ⟨word, by simp, known⟩
    have front := (Text.trimStart_eq_cons visible).2
      ⟨blanks, Eq.refl (blanks ++ '(' :: (arguments ++ [')'])), blank⟩
    rw [arguments?, dropped, Option.map_some, front]
    exact Text.dropEnd?_eq_some.2 rfl

theorem parts?_eq_some {value : String} {reference alpha : List Char} :
    parts? value.toList = some (reference, alpha) ↔
      ∃ x y, Spells value x y ∧ Text.trim x = reference ∧ Text.trim y = alpha := by
  unfold parts?
  constructor
  · intro h
    obtain ⟨arguments, enclosed, rest⟩ := Option.bind_eq_some_iff.1 h
    obtain ⟨⟨x, y⟩, parted, done⟩ := Option.bind_eq_some_iff.1 rest
    obtain ⟨word, blanks, split, known, blank⟩ := arguments?_eq_some.1 enclosed
    obtain ⟨rfl, last⟩ := Text.splitLast_iff.1 parted
    simp only [List.isEmpty_iff, Option.pure_def, Option.ite_none_left_eq_some,
      Option.some.injEq, Prod.mk.injEq] at done
    obtain ⟨present, rfl, rfl⟩ := done
    exact ⟨x, y, ⟨word, blanks, by simpa using split, known, blank, last, present⟩, rfl, rfl⟩
  · rintro ⟨x, y, ⟨word, blanks, split, known, blank, last, present⟩, rfl, rfl⟩
    have enclosed : arguments? value.toList = some (x ++ ',' :: y) :=
      arguments?_eq_some.2 ⟨word, blanks, by simpa using split, known, blank⟩
    rw [enclosed, Option.bind_eq_bind, Option.bind_some, Text.splitLast_append last]
    simp [present]

theorem parts?_eq_none {value : String} :
    parts? value.toList = none ↔ ¬ ∃ x y, Spells value x y := by
  rw [← not_iff_not, not_not, ← ne_eq, Option.ne_none_iff_exists']
  simp only [Prod.exists, parts?_eq_some]
  constructor
  · rintro ⟨_, _, x, y, spells, -⟩
    exact ⟨x, y, spells⟩
  · rintro ⟨x, y, spells⟩
    exact ⟨_, _, x, y, spells, rfl, rfl⟩

theorem read_eq_ok {value : String} {o : AlphaOverride} :
    read value = .ok o ↔
      ∃ x y, Spells value x y ∧ o.reference.toList = Text.trim x ∧
        Binary64.readFinite? (Text.trim y) = some o.alpha := by
  unfold read
  constructor
  · intro h
    split at h
    · cases h
    · rename_i reference alpha parts
      obtain ⟨x, y, spells, rfl, rfl⟩ := parts?_eq_some.1 parts
      split at h
      · rename_i number reads
        cases h
        exact ⟨x, y, spells, String.toList_ofList, reads⟩
      · cases h
  · rintro ⟨x, y, spells, same, reads⟩
    rw [parts?_eq_some.2 ⟨x, y, spells, rfl, rfl⟩]
    simp only [reads, ← same, String.ofList_toList]

theorem read_eq_error {value : String} {failure : Failure} :
    read value = .error failure ↔
      (∃ x y, Spells value x y ∧ Binary64.readFinite? (Text.trim y) = none ∧
          failure = .badNumber (String.ofList (Text.trim y))) ∨
        (¬ ∃ x y, Spells value x y) ∧ failure = .malformedAlpha value := by
  unfold read
  constructor
  · intro h
    split at h
    · rename_i none
      cases h
      exact .inr ⟨parts?_eq_none.1 none, rfl⟩
    · rename_i reference alpha parts
      obtain ⟨x, y, spells, rfl, rfl⟩ := parts?_eq_some.1 parts
      split at h
      · cases h
      · rename_i unread
        cases h
        exact .inl ⟨x, y, spells, unread, rfl⟩
  · rintro (⟨x, y, spells, unread, rfl⟩ | ⟨misfit, rfl⟩)
    · rw [parts?_eq_some.2 ⟨x, y, spells, rfl, rfl⟩]
      simp only [unread]
    · rw [parts?_eq_none.2 misfit]

/-! Slicing behind the keyword. -/

theorem exists_visible_head {word : List Char} (known : foldAscii word = keyword) :
    ∃ c rest, word = c :: rest ∧ isBlank c = false := by
  cases word with
  | nil => cases known
  | cons c rest =>
      obtain ⟨first, -⟩ := List.cons.inj known
      have visible : isBlank c.toLower = false := by
        rw [first]
        decide
      exact ⟨c, rest, rfl, Text.isBlank_toLower c ▸ visible⟩

theorem isForm_iff {value : String} :
    isForm value ↔
      ∃ blanks word rest, value.toList = blanks ++ word ++ rest ∧ Blanks blanks ∧
        foldAscii word = keyword := by
  rw [isForm, Option.isSome_iff_exists]
  simp only [Text.dropStartIgnoringAsciiCase?_iff]
  constructor
  · rintro ⟨rest, word, front, known⟩
    refine ⟨value.toList.takeWhile isBlank, word, rest, ?_, fun c => List.mem_takeWhile_imp, known⟩
    rw [List.append_assoc, ← front, Text.trimStart, List.takeWhile_append_dropWhile]
  · rintro ⟨blanks, word, rest, split, blank, known⟩
    refine ⟨rest, word, ?_, known⟩
    obtain ⟨c, others, rfl, visible⟩ := exists_visible_head known
    rw [split, List.append_assoc, Text.trimStart_append blank (by simp [visible])]

theorem Spells.isForm {value : String} {x y : List Char} (h : Spells value x y) :
    isForm value := by
  obtain ⟨word, blanks, split, known, -⟩ := h
  obtain ⟨before, after, whole, front, -⟩ := Text.exists_padding value.toList
  refine isForm_iff.2
    ⟨before, word, blanks ++ '(' :: x ++ ',' :: y ++ [')'] ++ after, ?_, front, known⟩
  rw [whole, split]
  simp only [List.append_assoc]

/-- Whether a value has the form can be told from its first four bytes behind blanks, where these
are whole characters. -/
theorem isForm_iff_bytes {value : String} :
    isForm value ↔
      ∃ head rest : String, String.ofList (Text.trimStart value.toList) = head ++ rest ∧
        head.utf8ByteSize = 4 ∧ foldAscii head.toList = keyword := by
  rw [isForm, Option.isSome_iff_exists]
  simp only [Text.dropStartIgnoringAsciiCase?_iff]
  constructor
  · rintro ⟨rest, word, front, known⟩
    change foldAscii word = keyword at known
    refine ⟨String.ofList word, String.ofList rest, ?_, ?_, ?_⟩
    · rw [front, String.ofList_append]
    · rw [← Text.utf8ByteSize_foldAscii, known]
      decide
    · rwa [String.toList_ofList]
  · rintro ⟨head, rest, front, -, known⟩
    refine ⟨rest.toList, head.toList, ?_, known⟩
    rw [← String.toList_append, ← front, String.toList_ofList]

/-- Behind the keyword a text can be cut at the fourth byte. -/
theorem isValid_four {cs : List Char} (trimmed : Trimmed cs)
    (h : isForm (String.ofList cs)) : (⟨4⟩ : String.Pos.Raw).IsValid (String.ofList cs) := by
  obtain ⟨head, rest, front, four, -⟩ := isForm_iff_bytes.1 h
  rw [String.toList_ofList, Text.trimStart_eq_self trimmed.1] at front
  rw [String.Pos.Raw.isValid_iff_exists_append]
  exact ⟨head, rest, front, by rw [String.rawEndPos, four]⟩

/-! Writing. -/

/-- Where blanks may stand in an override. -/
inductive Place where
  | front
  | behindWord
  | beforeReference
  | behindReference
  | beforeAlpha
  | behindAlpha
  | back

/-- One way to write overrides: the keyword in some case, and the blanks of every place. -/
structure Spelling where
  word : List Char
  known : foldAscii word = keyword
  gap : Place → List Char
  blank : ∀ place, Blanks (gap place)

def Spelling.write (p : Spelling) (reference alpha : List Char) : String :=
  String.ofList
    (p.gap .front ++
      (p.word ++ p.gap .behindWord ++
        '(' :: (p.gap .beforeReference ++ reference ++ p.gap .behindReference) ++
        ',' :: (p.gap .beforeAlpha ++ alpha ++ p.gap .behindAlpha) ++ [')']) ++
      p.gap .back)

theorem Spelling.spells (p : Spelling) {reference alpha : List Char} (trimmed : Trimmed reference)
    (present : reference ≠ []) (last : ',' ∉ alpha) :
    Spells (p.write reference alpha)
      (p.gap .beforeReference ++ reference ++ p.gap .behindReference)
      (p.gap .beforeAlpha ++ alpha ++ p.gap .behindAlpha) := by
  refine ⟨p.word, p.gap .behindWord, ?_, p.known, p.blank _, ?_, ?_⟩
  · rw [write, String.toList_ofList]
    refine Text.trim_padded ?_ (p.blank _) (p.blank _)
    obtain ⟨c, rest, word, visible⟩ := exists_visible_head p.known
    rw [word]
    constructor
    · simp [visible]
    · intro d final
      rw [List.getLast?_concat] at final
      obtain rfl := Option.some.inj final
      decide
  · simp only [List.mem_append, not_or]
    have visible : isBlank ',' = false := by decide
    exact ⟨⟨Text.not_mem_of_blanks visible (p.blank _), last⟩,
      Text.not_mem_of_blanks visible (p.blank _)⟩
  · rwa [Text.trim_padded trimmed (p.blank _) (p.blank _)]

theorem Spelling.reads_back (p : Spelling) {reference alpha : List Char} {number : Binary64}
    (trimmed : Trimmed reference) (present : reference ≠ [])
    (reads : Binary64.readFinite? alpha = some number) :
    read (p.write reference alpha) = .ok ⟨String.ofList reference, number⟩ := by
  have solid := Binary64.solid_of_readFinite? reads
  have last : ',' ∉ alpha := fun member => (solid ',' member).2 rfl
  have tight : Trimmed alpha := .of_forall fun c hc => (solid c hc).1
  refine read_eq_ok.2 ⟨_, _, p.spells trimmed present last, ?_, ?_⟩
  · rw [Text.trim_padded trimmed (p.blank _) (p.blank _), String.toList_ofList]
  · rwa [Text.trim_padded tight (p.blank _) (p.blank _)]

/-- A value is read as an override when it has the form of one and its number is finite. If only
the number is not, that is reported, and everything else is malformed, in particular what does not
begin with the keyword. What is written in any spelling reads back. -/
theorem read_follows_form (value : String) :
    (∀ o, read value = .ok o ↔
        ∃ x y, Spells value x y ∧ o.reference.toList = Text.trim x ∧
          Binary64.readFinite? (Text.trim y) = some o.alpha) ∧
      (∀ failure, read value = .error failure ↔
        (∃ x y, Spells value x y ∧ Binary64.readFinite? (Text.trim y) = none ∧
            failure = .badNumber (String.ofList (Text.trim y))) ∨
          (¬ ∃ x y, Spells value x y) ∧ failure = .malformedAlpha value) ∧
      (isForm value ↔
        ∃ blanks word rest, value.toList = blanks ++ word ++ rest ∧ Blanks blanks ∧
          foldAscii word = keyword) ∧
      (isForm value ↔
        ∃ head rest : String, String.ofList (Text.trimStart value.toList) = head ++ rest ∧
          head.utf8ByteSize = 4 ∧ foldAscii head.toList = keyword) ∧
      (isForm value = false → read value = .error (.malformedAlpha value)) ∧
      (isForm (String.ofList (Text.trim value.toList)) →
        (⟨4⟩ : String.Pos.Raw).IsValid (String.ofList (Text.trim value.toList))) ∧
      ∀ (p : Spelling) (reference alpha : List Char) (number : Binary64),
        Trimmed reference → reference ≠ [] → Binary64.readFinite? alpha = some number →
          read (p.write reference alpha) = .ok ⟨String.ofList reference, number⟩ := by
  refine ⟨fun _ => read_eq_ok, fun _ => read_eq_error, isForm_iff, isForm_iff_bytes, ?_,
    isValid_four (Text.trimmed_trim _), fun p _ _ _ => p.reads_back⟩
  intro other
  refine read_eq_error.2 (.inr ⟨?_, rfl⟩)
  rintro ⟨x, y, spells⟩
  rw [spells.isForm] at other
  cases other

/-- Blanks in every place, and capital letters in the keyword. -/
def looseSpelling : Spelling where
  word := "RgBa".toList
  known := by decide
  gap
    | .front => ['\u00a0']
    | .behindWord => [' ', '\t']
    | .beforeAlpha => ['\n']
    | _ => [' ']
  blank := by
    intro place
    cases place <;> decide

theorem read_follows_form_loose :
    read "\u00a0RgBa \t( {Colors.f(1,2)} ,\n-.5e1 ) " =
        .ok ⟨"{Colors.f(1,2)}", ⟨0xC014000000000000⟩⟩ ∧
      (∃ x y, Spells "rgba(x, 1e999)" x y ∧ Binary64.readFinite? (Text.trim y) = none) ∧
      read "rgbä(x, 1)" = .error (.malformedAlpha "rgbä(x, 1)") := by
  refine ⟨?_, ?_, ?_⟩
  · obtain ⟨-, -, -, -, -, -, written⟩ := read_follows_form ""
    exact written looseSpelling "{Colors.f(1,2)}".toList "-.5e1".toList _ (by decide) (by decide)
      (by decide +kernel)
  · obtain ⟨-, failures, -⟩ := read_follows_form "rgba(x, 1e999)"
    have answer : read "rgba(x, 1e999)" = .error (.badNumber "1e999") := by decide +kernel
    obtain ⟨x, y, spells, unread, -⟩ | ⟨-, other⟩ := (failures _).1 answer
    · exact ⟨x, y, spells, unread⟩
    · cases other
  · obtain ⟨-, -, -, -, other, -⟩ := read_follows_form "rgbä(x, 1)"
    exact other (by decide +kernel)

end AlphaOverride

end DesignTokens
