import DesignTokens.Naming.Sanitizer
import DesignTokens.Proofs.AsciiFolding
import DesignTokens.Proofs.EscapedNames
import DesignTokens.Proofs.TakingApart

/-!
How the names of tokens are spelled. What is left of a raw name without its beginning and its
category is a row of words between hyphens and blanks; the declared name is these words without
anything between them, in other cases of their letters. So an ASCII name is an identifier exactly
when its words put together are one, and names clash exactly when their words put together do.
-/
namespace DesignTokens

namespace Text

/-- The maximal runs of a text that hold no separator. -/
inductive Runs (sep : Char → Bool) : List Char → List (List Char) → Prop where
  | nil : Runs sep [] []
  | gap {c rest runs} (separates : sep c) (others : Runs sep rest runs) : Runs sep (c :: rest) runs
  | run {word rest runs} (present : word ≠ []) (unseparated : ∀ c ∈ word, sep c = false)
      (ends : ∀ c ∈ rest.head?, sep c) (others : Runs sep rest runs) :
      Runs sep (word ++ rest) (word :: runs)

section Runs
variable {sep : Char → Bool} {cs : List Char} {runs : List (List Char)}

theorem exists_runs (sep : Char → Bool) (cs : List Char) : ∃ runs, Runs sep cs runs := by
  induction cs with
  | nil => exact ⟨[], .nil⟩
  | cons c rest ih =>
      obtain ⟨runs, others⟩ := ih
      cases hc : sep c with
      | true => exact ⟨runs, .gap hc others⟩
      | false =>
          have alone : ∀ d ∈ [c], sep d = false := by simpa using hc
          -- the character stands in front of a run or makes one of its own
          cases others with
          | nil =>
              have single : Runs sep ([c] ++ []) [[c]] := .run (by simp) alone (by simp) .nil
              exact ⟨_, single⟩
          | @gap d rest runs separates others =>
              have first : Runs sep ([c] ++ d :: rest) ([c] :: runs) :=
                .run (by simp) alone (by simpa using separates) (.gap separates others)
              exact ⟨_, first⟩
          | @run word rest runs present unseparated ends others =>
              have longer : Runs sep ((c :: word) ++ rest) ((c :: word) :: runs) :=
                .run (by simp) (List.forall_mem_cons.2 ⟨hc, unseparated⟩) ends others
              exact ⟨_, longer⟩

theorem Runs.eq_pieces (h : Runs sep cs runs) : runs = (pieces sep cs).filter (!·.isEmpty) := by
  induction h with
  | nil => rfl
  | gap separates _ ih =>
      rw [pieces, if_pos separates, ih]
      rfl
  | @run word rest runs present unseparated ends _ ih =>
      have kept : (!word.isEmpty) = true := by simpa using present
      cases rest with
      | nil =>
          rw [ih, List.append_nil, pieces_of_forall_not unseparated]
          simp [pieces, kept]
      | cons s rest =>
          have separates : sep s := ends s rfl
          rw [ih, pieces_append unseparated separates, pieces, if_pos separates]
          simp [kept]

theorem runs_iff : Runs sep cs runs ↔ runs = (pieces sep cs).filter (!·.isEmpty) := by
  constructor
  · exact Runs.eq_pieces
  · rintro rfl
    obtain ⟨runs, h⟩ := exists_runs sep cs
    rwa [← h.eq_pieces]

theorem Runs.mem_of_mem_flatten (h : Runs sep cs runs) {c : Char} (hc : c ∈ runs.flatten) :
    c ∈ cs := by
  induction h with
  | nil => exact hc
  | gap _ _ ih => exact List.mem_cons_of_mem _ (ih hc)
  | run _ _ _ _ ih =>
      rw [List.flatten_cons] at hc
      exact List.mem_append.2 ((List.mem_append.1 hc).imp_right ih)

theorem Runs.ne_nil_of_mem (h : Runs sep cs runs) {word : List Char} (hw : word ∈ runs) :
    word ≠ [] := by
  rw [h.eq_pieces] at hw
  simpa using (List.mem_filter.1 hw).2

end Runs

section Ascii
variable {c : Char} (ascii : c.toNat < 0x80)
include ascii

theorem lowerChar_ascii : lowerChar c = [c.toLower] := if_pos ascii

theorem upperChar_ascii : upperChar c = [c.toUpper] := if_pos ascii

theorem toNat_toUpper_lt : c.toUpper.toNat < 0x80 := by
  refine of_each_below (P := fun c => c.toUpper.toNat < 0x80) ?_ ascii
  decide

theorem toLower_toUpper : c.toUpper.toLower = c.toLower := by
  refine of_each_below (P := fun c => c.toUpper.toLower = c.toLower) ?_ ascii
  decide

end Ascii

end Text

namespace Naming
open Text

/-- Characters of one byte, none of them a backtick. -/
def Plain (cs : List Char) : Prop := ∀ c ∈ cs, c.toNat < 0x80 ∧ c ≠ Swift.backtick

instance (cs : List Char) : Decidable (Plain cs) := List.decidableBAll _ cs

/-- What keeps the words of a raw name apart. -/
def isSeparator (c : Char) : Bool := isBlank c || c = '-'

def capitalized : List Char → List Char
  | [] => []
  | c :: rest => c.toUpper :: foldAscii rest

/-- Words put together: small letters, but a capital at the head of every word behind the first. -/
def joined : List (List Char) → List Char
  | [] => []
  | word :: others => foldAscii word ++ others.flatMap capitalized

/-- Of ASCII letters, digits and underscores, and no digit in front. -/
def Usable (cs : List Char) : Prop :=
  ∃ first rest, cs = first :: rest ∧ (first.isAlpha ∨ first = '_') ∧
    ∀ c ∈ rest, c.isAlphanum ∨ c = '_'

section Words
variable {cs : List Char} {runs : List (List Char)}

theorem runs_iff_words : Runs isSeparator cs runs ↔ runs = words (hyphensToSpaces cs) := by
  have spaced : pieces isBlank (hyphensToSpaces cs) = pieces isSeparator cs := by
    induction cs with
    | nil => rfl
    | cons c rest ih =>
        have separates : isBlank (if c = '-' then ' ' else c) = isSeparator c := by
          by_cases hyphen : c = '-'
          · subst hyphen
            rfl
          · simp [isSeparator, hyphen]
        change pieces isBlank ((if c = '-' then ' ' else c) :: hyphensToSpaces rest) = _
        rw [pieces, pieces, ih, separates]
        by_cases hc : isSeparator c
        · rw [if_pos hc, if_pos hc]
        · have kept : (if c = '-' then ' ' else c) = c := by
            refine if_neg ?_
            rintro rfl
            exact hc (by decide)
          rw [kept]
  rw [runs_iff, words, spaced]

theorem capitalize_ascii {word : List Char} (ascii : ∀ c ∈ word, c.toNat < 0x80) :
    capitalize word = capitalized word := by
  cases word with
  | nil => rfl
  | cons c rest =>
      obtain ⟨first, others⟩ := List.forall_mem_cons.1 ascii
      have small : rest.flatMap lowerChar = foldAscii rest := by
        rw [List.flatMap_congr fun d hd => lowerChar_ascii (others d hd), foldAscii,
          List.map_eq_flatMap]
      rw [capitalize, upperChar_ascii first, small]
      rfl

theorem camelCase_ascii (h : Runs isSeparator cs runs) (ascii : ∀ c ∈ cs, c.toNat < 0x80) :
    camelCase (hyphensToSpaces cs) = joined runs := by
  have each : ∀ word ∈ runs, ∀ c ∈ word, c.toNat < 0x80 := fun word hw c hc =>
    ascii c (h.mem_of_mem_flatten (List.mem_flatten.2 ⟨word, hw, hc⟩))
  have present : ∀ word ∈ runs, word ≠ [] := fun _ => h.ne_nil_of_mem
  have pascal : pascalCase (hyphensToSpaces cs) = runs.flatMap capitalized := by
    rw [pascalCase, ← runs_iff_words.1 h]
    exact List.flatMap_congr fun word hw => capitalize_ascii (each word hw)
  rw [camelCase, pascal]
  cases runs with
  | nil => rfl
  | cons word others =>
      cases word with
      | nil => exact absurd rfl (present [] List.mem_cons_self)
      | cons c rest =>
          have first : c.toNat < 0x80 := each _ List.mem_cons_self c List.mem_cons_self
          rw [List.flatMap_cons, capitalized, List.cons_append, uncapitalize,
            lowerChar_ascii (toNat_toUpper_lt first), toLower_toUpper first]
          rfl

end Words

theorem foldAscii_capitalized {word : List Char} (ascii : ∀ c ∈ word, c.toNat < 0x80) :
    foldAscii (capitalized word) = foldAscii word := by
  cases word with
  | nil => rfl
  | cons c rest =>
      have first : c.toUpper.toLower = c.toLower := toLower_toUpper (ascii c List.mem_cons_self)
      change c.toUpper.toLower :: foldAscii (foldAscii rest) = c.toLower :: foldAscii rest
      rw [first, foldAscii_foldAscii]

/-- Putting words together changes nothing but the case of their letters. -/
theorem foldAscii_joined {runs : List (List Char)} (ascii : ∀ c ∈ runs.flatten, c.toNat < 0x80) :
    foldAscii (joined runs) = foldAscii runs.flatten := by
  cases runs with
  | nil => rfl
  | cons word others =>
      have each : ∀ other ∈ others, foldAscii (capitalized other) = foldAscii other := by
        intro other ho
        refine foldAscii_capitalized fun c hc => ascii c ?_
        exact List.mem_flatten.2 ⟨other, List.mem_cons_of_mem _ ho, hc⟩
      have behind : foldAscii (others.flatMap capitalized) = foldAscii others.flatten := by
        rw [foldAscii, List.map_flatMap, foldAscii, List.map_flatten, ← List.flatMap_def]
        exact List.flatMap_congr each
      rw [joined, List.flatten_cons, foldAscii_append, foldAscii_append, foldAscii_foldAscii,
        behind]

theorem isIdentifierChars_foldAscii (cs : List Char) :
    Swift.isIdentifierChars (foldAscii cs) = Swift.isIdentifierChars cs := by
  have start := toLower_invariant Swift.isIdentifierStart (by decide)
  have part : Swift.isIdentifierPart ∘ Char.toLower = Swift.isIdentifierPart :=
    funext (toLower_invariant Swift.isIdentifierPart (by decide))
  cases cs with
  | nil => rfl
  | cons c rest =>
      change (Swift.isIdentifierStart c.toLower && (rest.map Char.toLower).all _) = _
      rw [start, List.all_map, part]
      rfl

theorem isIdentifierChars_iff_usable {cs : List Char} (ascii : ∀ c ∈ cs, c.toNat < 0x80) :
    Swift.isIdentifierChars cs ↔ Usable cs := by
  cases cs with
  | nil => simp [Swift.isIdentifierChars, Usable]
  | cons c rest =>
      obtain ⟨first, others⟩ := List.forall_mem_cons.1 ascii
      have part : ∀ d ∈ rest, (Swift.isIdentifierPart d ↔ d.isAlphanum ∨ d = '_') := by
        intro d hd
        simp [Swift.isIdentifierPart, isWordChar, isLetter, isNumeral, others d hd,
          Char.isAlphanum]
      simp only [Swift.isIdentifierChars, Swift.isIdentifierStart, isLetter, if_pos first,
        Bool.and_eq_true, Bool.or_eq_true, decide_eq_true_eq, List.all_eq_true, Usable,
        List.cons.injEq]
      constructor
      · intro h
        exact ⟨c, rest, ⟨rfl, rfl⟩, h.1, fun d hd => (part d hd).1 (h.2 d hd)⟩
      · rintro ⟨_, _, ⟨rfl, rfl⟩, start, parts⟩
        exact ⟨start, fun d hd => (part d hd).2 (parts d hd)⟩

section Quoting
open Swift (backtick)
variable {name name' : String} (bare : backtick ∉ name.toList) (bare' : backtick ∉ name'.toList)
include bare

theorem unquote_escape : Swift.unquote (Swift.escape name) = name := by
  unfold Swift.escape
  split
  · exact Swift.unquote_quote name
  · cases @Swift.unquote_eq_or name with
    | inl same => exact same
    | inr quoted =>
        refine absurd ?_ bare
        rw [quoted]
        simp

theorem foldAscii_ne_quote :
    foldAscii name.toList ≠ foldAscii (Swift.quote name').toList := by
  intro same
  rw [Swift.toList_quote] at same
  cases spelled : name.toList with
  | nil =>
      rw [spelled] at same
      cases same
  | cons c rest =>
      rw [spelled] at same
      have tick : c.toLower = backtick := (List.cons.inj same).1
      rw [toLower_eq_iff (by decide)] at tick
      exact bare (spelled ▸ tick ▸ List.mem_cons_self)

include bare'

/-- Escaping tells no names apart that differ in case only, and takes no others together. -/
theorem foldAscii_escape_inj
    (same : foldAscii (Swift.escape name).toList = foldAscii (Swift.escape name').toList) :
    foldAscii name.toList = foldAscii name'.toList := by
  unfold Swift.escape at same
  split at same <;> split at same
  · rw [Swift.toList_quote, Swift.toList_quote] at same
    simpa [foldAscii] using same
  · exact absurd same.symm (foldAscii_ne_quote bare')
  · exact absurd same (foldAscii_ne_quote bare)
  · exact same

end Quoting

theorem mem_of_mem_copyWithout {category cs : List Char} {skip : Nat} {c : Char}
    (h : c ∈ copyWithout category skip cs) : c ∈ cs := by
  fun_induction copyWithout category skip cs with
  | case1 => exact h
  | case2 d rest skip ih => exact List.mem_cons_of_mem _ (ih h)
  | case3 d rest _ ih => exact List.mem_cons_of_mem _ (ih h)
  | case4 d rest _ ih =>
      rcases List.mem_cons.1 h with rfl | h
      · exact List.mem_cons_self
      · exact List.mem_cons_of_mem _ (ih h)

theorem mem_of_mem_removeCategory {name category : List Char} {c : Char}
    (h : c ∈ removeCategory name category) : c ∈ name := by
  unfold removeCategory at h
  split at h
  · exact h
  · exact mem_of_mem_copyWithout h

theorem mem_of_mem_withoutStart {start name : List Char} {c : Char}
    (h : c ∈ withoutStart start name) : c ∈ name := by
  unfold withoutStart at h
  cases dropped : dropStart? start name with
  | none => rwa [dropped] at h
  | some rest =>
      rw [dropped] at h
      rw [dropStart?_eq_some.1 dropped]
      exact List.mem_append_right _ h

/-- What a token is named as: a colour of a category, or a size. -/
inductive Role where
  | colour (start category : String)
  | size (start : String)

namespace Role

def declared : Role → String → String
  | colour start category, token => colourName start category token
  | size start, token => sizeName start token

/-- What is left of the name of a token for its words. -/
def remainder : Role → String → List Char
  | colour start category, token =>
    removeCategory (withoutStart start.toList token.toList) category.toList
  | size start, token => withoutStart start.toList token.toList

/-- Only sizes can have a number for a name. -/
def isNumbered : Role → String → Bool
  | colour _ _, _ => false
  | size _, token => isNumeric token

section Spelling
variable {role role' : Role} {token token' : String} {runs runs' : List (List Char)}

theorem declared_of_isNumbered (h : role.isNumbered token) :
    role.declared token = "_" ++ token := by
  cases role with
  | colour => cases h
  | size => exact if_pos h

theorem mem_of_mem_remainder {c : Char} (h : c ∈ role.remainder token) : c ∈ token.toList := by
  cases role with
  | colour => exact mem_of_mem_withoutStart (mem_of_mem_removeCategory h)
  | size => exact mem_of_mem_withoutStart h

variable (plain : Plain token.toList) (words : Runs isSeparator (role.remainder token) runs)
include plain words

theorem plain_flatten : Plain runs.flatten := fun c hc =>
  plain c (mem_of_mem_remainder (words.mem_of_mem_flatten hc))

theorem bare_joined : Swift.backtick ∉ (String.ofList (joined runs)).toList := by
  intro tick
  rw [String.toList_ofList] at tick
  have folded : Swift.backtick.toLower ∈ foldAscii (joined runs) := List.mem_map_of_mem tick
  rw [foldAscii_joined fun c hc => (plain_flatten plain words c hc).1] at folded
  obtain ⟨c, hc, lower⟩ := List.mem_map.1 folded
  exact (plain_flatten plain words c hc).2 ((toLower_eq_iff (by decide) c).1 lower)

variable (unnumbered : ¬ role.isNumbered token)
include unnumbered

theorem declared_eq : role.declared token = Swift.escape (String.ofList (joined runs)) := by
  have ascii : ∀ c ∈ role.remainder token, c.toNat < 0x80 := fun c hc =>
    (plain c (mem_of_mem_remainder hc)).1
  rw [← camelCase_ascii words ascii]
  cases role with
  | colour => rfl
  | size => exact if_neg unnumbered

theorem unquote_declared :
    Swift.unquote (role.declared token) = String.ofList (joined runs) := by
  rw [declared_eq plain words unnumbered, unquote_escape (bare_joined plain words)]

theorem foldAscii_unquote_declared :
    foldAscii (Swift.unquote (role.declared token)).toList = foldAscii runs.flatten := by
  rw [unquote_declared plain words unnumbered, String.toList_ofList,
    foldAscii_joined fun c hc => (plain_flatten plain words c hc).1]

theorem isIdentifier_unquote_declared :
    Swift.isIdentifier (Swift.unquote (role.declared token)) ↔ Usable runs.flatten := by
  rw [Swift.isIdentifier, ← isIdentifierChars_foldAscii,
    foldAscii_unquote_declared plain words unnumbered, isIdentifierChars_foldAscii]
  exact isIdentifierChars_iff_usable fun c hc => (plain_flatten plain words c hc).1

end Spelling

/-- A whole number keeps its digits. Any other name is declared as its words, put together and
escaped, so its letters decide alone what it clashes with and whether it is an identifier. -/
theorem declared_spells_words (role role' : Role) {token token' : String}
    (plain : Plain token.toList) (plain' : Plain token'.toList) :
    (role.isNumbered token → role.declared token = "_" ++ token) ∧
    (¬ role.isNumbered token → ∃ runs,
      (∀ others, Runs isSeparator (role.remainder token) others ↔ others = runs) ∧
      role.declared token =
        (let spelled := String.ofList (joined runs)
        if spelled ∈ Swift.reservedWords then Swift.quote spelled else spelled) ∧
      foldAscii (Swift.unquote (role.declared token)).toList = foldAscii runs.flatten ∧
      (Swift.isIdentifier (Swift.unquote (role.declared token)) ↔ Usable runs.flatten)) ∧
    (¬ role.isNumbered token → ¬ role'.isNumbered token' → ∀ runs runs',
      Runs isSeparator (role.remainder token) runs →
      Runs isSeparator (role'.remainder token') runs' →
      (foldAscii (role.declared token).toList = foldAscii (role'.declared token').toList →
        foldAscii runs.flatten = foldAscii runs'.flatten) ∧
      (foldAscii (Swift.unquote (role.declared token)).toList =
          foldAscii (Swift.unquote (role'.declared token')).toList ↔
        foldAscii runs.flatten = foldAscii runs'.flatten)) := by
  refine ⟨declared_of_isNumbered, ?_, ?_⟩
  · intro unnumbered
    obtain ⟨runs, words⟩ := exists_runs isSeparator (role.remainder token)
    refine ⟨runs, fun others => ?_, ?_, foldAscii_unquote_declared plain words unnumbered,
      isIdentifier_unquote_declared plain words unnumbered⟩
    · rw [runs_iff, words.eq_pieces]
    · rw [declared_eq plain words unnumbered, Swift.escape]
      simp only [Swift.isReserved_iff]
  · intro unnumbered unnumbered' runs runs' words words'
    have letters := foldAscii_unquote_declared plain words unnumbered
    have letters' := foldAscii_unquote_declared plain' words' unnumbered'
    refine ⟨fun same => ?_, by rw [letters, letters']⟩
    rw [declared_eq plain words unnumbered, declared_eq plain' words' unnumbered'] at same
    have bare := foldAscii_escape_inj (bare_joined plain words) (bare_joined plain' words') same
    rwa [← unquote_declared plain words unnumbered, ← unquote_declared plain' words' unnumbered',
      letters, letters'] at bare

/-- A colour whose name is a reserved word, and a size of the same letters. -/
theorem declared_spells_words_default :
    (colour "--color-" "Button").declared "--color-button-default" = "\x60default\x60" ∧
    (size "--gap-").declared "--gap-de Fault" = "deFault" ∧
    foldAscii (Swift.unquote "\x60default\x60").toList =
      foldAscii (Swift.unquote "deFault").toList ∧
    (size "--gap-").declared "07" = "_07" := by
  have named : (colour "--color-" "Button").declared "--color-button-default" =
      "\x60default\x60" := by decide +kernel
  have named' : (size "--gap-").declared "--gap-de Fault" = "deFault" := by decide +kernel
  have plain : Plain "--color-button-default".toList := by decide
  have plain' : Plain "--gap-de Fault".toList := by decide
  have words : Runs isSeparator ((colour "--color-" "Button").remainder "--color-button-default")
      ["default".toList] := runs_iff.2 (by decide +kernel)
  have words' : Runs isSeparator ((size "--gap-").remainder "--gap-de Fault")
      ["de".toList, "Fault".toList] := runs_iff.2 (by decide +kernel)
  obtain ⟨-, -, compared⟩ := declared_spells_words (colour "--color-" "Button") (size "--gap-")
    plain plain'
  have letters := (compared (by decide) (by decide) _ _ words words').2.2 (by decide)
  rw [named, named'] at letters
  have digits : Plain "07".toList := by decide
  have numbered := (declared_spells_words (size "--gap-") (size "--gap-") digits digits).1
  exact ⟨named, named', letters, numbered (by decide)⟩

end Role

end Naming

end DesignTokens
