import DesignTokens.Naming.WordCase
import DesignTokens.Proofs.CaseImages
import DesignTokens.Swift.Identifier

/-!
Names in Pascal and in camel case. Words of identifier characters are put together to an identifier
again, unless a letter among them turns into one with a combining mark, which no identifier holds.
-/
namespace DesignTokens.Naming
open Text Swift

section Letters
variable {c d : Char}

theorem isIdentifierStart_of_recased (start : isIdentifierStart c)
    (h : isLetter d ∨ d = c) : isIdentifierStart d := by
  rcases h with letter | rfl
  · simp [isIdentifierStart, letter]
  · exact start

theorem isIdentifierPart_of_recased (part : isIdentifierPart c)
    (h : isLetter d ∨ d = c) : isIdentifierPart d := by
  rcases h with letter | rfl
  · simp [isIdentifierPart, isWordChar, letter]
  · exact part

variable (part : isIdentifierPart c)
include part

theorem isIdentifierPart_lowerChar :
    (∀ d ∈ lowerChar c, isIdentifierPart d) ↔ c ≠ dottedCapitalI := by
  constructor
  · rintro parts rfl
    have mark : (lowerChar dottedCapitalI).all isIdentifierPart = false := by decide
    rw [List.all_eq_true.2 parts] at mark
    cases mark
  · intro undotted d hd
    exact isIdentifierPart_of_recased part (of_mem_lowerChar undotted hd)

theorem isIdentifierPart_upperChar :
    (∀ d ∈ upperChar c, isIdentifierPart d) ↔ c.toNat ∉ markedCapitals := by
  constructor
  · intro parts marked
    have marks : ∀ n ∈ markedCapitals, (upperChar (Char.ofNat n)).all isIdentifierPart = false := by
      decide +kernel
    have mark := marks c.toNat marked
    rw [Char.ofNat_toNat, List.all_eq_true.2 parts] at mark
    cases mark
  · intro unmarked d hd
    exact isIdentifierPart_of_recased part ((recased_upperChar c).of_mem unmarked d hd)

end Letters

/-- A word that gets no combining mark from its capital in front or the small letters behind it. -/
def Recasable : List Char → Prop
  | [] => True
  | first :: rest => first.toNat ∉ markedCapitals ∧ dottedCapitalI ∉ rest

instance : (word : List Char) → Decidable (Recasable word)
  | [] => .isTrue trivial
  | first :: rest =>
    inferInstanceAs (Decidable (first.toNat ∉ markedCapitals ∧ dottedCapitalI ∉ rest))

theorem isIdentifierPart_capitalize {word : List Char} (parts : ∀ c ∈ word, isIdentifierPart c) :
    (∀ d ∈ capitalize word, isIdentifierPart d) ↔ Recasable word := by
  cases word with
  | nil => simp [capitalize, Recasable]
  | cons first rest =>
      obtain ⟨part, others⟩ := List.forall_mem_cons.1 parts
      have small : (∀ d ∈ rest.flatMap lowerChar, isIdentifierPart d) ↔ dottedCapitalI ∉ rest := by
        rw [List.forall_mem_flatMap]
        constructor
        · intro h dotted
          exact (isIdentifierPart_lowerChar (others _ dotted)).1 (h _ dotted) rfl
        · rintro undotted c hc
          refine (isIdentifierPart_lowerChar (others c hc)).2 ?_
          rintro rfl
          exact undotted hc
      rw [capitalize, List.forall_mem_append, isIdentifierPart_upperChar part, small, Recasable]

section Words
variable {cs : List Char} {first : Char} {rest : List Char} {others : List (List Char)}

/-- The capital in front of a name in Pascal case. -/
theorem pascalCase_eq_cons (split : words cs = (first :: rest) :: others) :
    ∃ capital tail, pascalCase cs = capital :: tail ∧ (isLetter capital ∨ capital = first) ∧
      (capital = dottedCapitalI ↔ first = dottedCapitalI) := by
  have spelled : pascalCase cs =
      upperChar first ++ (rest.flatMap lowerChar ++ others.flatMap capitalize) := by
    rw [pascalCase, split, List.flatMap_cons, capitalize, List.append_assoc]
  obtain ⟨capital, marks, image, begins⟩ := (recased_upperChar first).exists_cons
  rw [image] at spelled
  refine ⟨capital, _, spelled, begins, ?_, ?_⟩
  · rintro rfl
    exact eq_dottedCapitalI_of_mem_upperChar (image ▸ List.mem_cons_self)
  · rintro rfl
    have same : upperChar dottedCapitalI = [dottedCapitalI] := by decide +kernel
    exact (List.cons.inj (image.symm.trans same)).1

variable (split : words cs = (first :: rest) :: others) (start : isIdentifierStart first)
  (parts : ∀ word ∈ words cs, ∀ c ∈ word, isIdentifierPart c)
include split start parts

theorem isIdentifierChars_pascalCase :
    isIdentifierChars (pascalCase cs) ↔ ∀ word ∈ words cs, Recasable word := by
  have letters : (∀ d ∈ pascalCase cs, isIdentifierPart d) ↔ ∀ word ∈ words cs, Recasable word := by
    rw [pascalCase, List.forall_mem_flatMap]
    exact forall₂_congr fun word hw => isIdentifierPart_capitalize (parts word hw)
  obtain ⟨capital, tail, spelled, begins, -⟩ := pascalCase_eq_cons split
  rw [← letters, spelled, isIdentifierChars_cons]
  exact and_iff_right (isIdentifierStart_of_recased start begins)

theorem isIdentifierChars_camelCase :
    isIdentifierChars (camelCase cs) ↔
      first ≠ dottedCapitalI ∧ ∀ word ∈ words cs, Recasable word := by
  rw [← isIdentifierChars_pascalCase split start parts]
  obtain ⟨capital, tail, spelled, begins, dotted⟩ := pascalCase_eq_cons split
  have capitalStart := isIdentifierStart_of_recased start begins
  have capitalPart := isIdentifierPart_of_start capitalStart
  have small := isIdentifierPart_lowerChar capitalPart
  rw [camelCase, spelled, uncapitalize, isIdentifierChars_cons, and_iff_right capitalStart,
    List.forall_mem_cons, and_iff_right capitalPart, ne_eq, ← dotted, ← ne_eq, ← small]
  obtain ⟨letter, marks, image, begins⟩ := (recased_lowerChar capital).exists_cons
  rw [image, List.cons_append, isIdentifierChars_cons, ← List.cons_append, List.forall_mem_append]
  exact and_iff_right (isIdentifierStart_of_recased capitalStart begins)

end Words

/-- Words of letters, numerals and underscores make an identifier unless a letter brings a combining
mark along: in Pascal case one of the capitals in front of the words, or a capital I with a dot that
becomes small. In camel case the very first letter becomes small as well. -/
theorem recased_isIdentifier_iff {s : String} {first : Char} {rest : List Char}
    {others : List (List Char)} (split : words s.toList = (first :: rest) :: others)
    (start : isIdentifierStart first)
    (parts : ∀ word ∈ words s.toList, ∀ c ∈ word, isIdentifierPart c) :
    (isIdentifier (String.ofList (pascalCase s.toList)) ↔
      ∀ word ∈ words s.toList, Recasable word) ∧
    (isIdentifier (String.ofList (camelCase s.toList)) ↔
      first ≠ dottedCapitalI ∧ ∀ word ∈ words s.toList, Recasable word) := by
  simp only [isIdentifier, String.toList_ofList]
  exact ⟨isIdentifierChars_pascalCase split start parts,
    isIdentifierChars_camelCase split start parts⟩

/-- A letter with a mark of its own keeps it, and a capital I with a dot is kept as a capital. -/
theorem recased_isIdentifier_iff_dotted :
    isIdentifier (String.ofList (pascalCase "\u0130ki \u00e9_2".toList)) ∧
      ¬ isIdentifier (String.ofList (camelCase "\u0130ki \u00e9_2".toList)) := by
  have split : words "\u0130ki \u00e9_2".toList =
      ('\u0130' :: ['k', 'i']) :: [['\u00e9', '_', '2']] := by decide
  have recasable : ∀ word ∈ words "\u0130ki \u00e9_2".toList, Recasable word := by
    rw [split]
    decide
  have parts : ∀ word ∈ words "\u0130ki \u00e9_2".toList, word.all isIdentifierPart := by
    rw [split]
    decide
  obtain ⟨pascal, camel⟩ := recased_isIdentifier_iff split (by decide)
    fun word hw => List.all_eq_true.1 (parts word hw)
  exact ⟨pascal.2 recasable, fun h => (camel.1 h).1 rfl⟩

/-- The capital of a j with a caron is a J and a mark behind it. -/
theorem not_every_recased_name_identifier :
    ¬ ∀ (s : String) (first : Char) (rest : List Char) (others : List (List Char)),
      words s.toList = (first :: rest) :: others → isIdentifierStart first →
      (∀ word ∈ words s.toList, ∀ c ∈ word, isIdentifierPart c) →
        isIdentifier (String.ofList (pascalCase s.toList)) ∧
          isIdentifier (String.ofList (camelCase s.toList)) := by
  intro h
  have parts : ∀ word ∈ words "\u01f0".toList, word.all isIdentifierPart := by decide
  have caron := h "\u01f0" '\u01f0' [] [] (by decide) (by decide)
    fun word hw => List.all_eq_true.1 (parts word hw)
  exact absurd caron.1 (by decide)

end DesignTokens.Naming
