import DesignTokens.Text.Blank
import Mathlib.Data.List.DropRight

/-!
Texts that trimming leaves alone: those that neither begin nor end with white space. What trimming
leaves of any other text is one of them, with white space in front and behind.
-/
namespace DesignTokens.Text

def Trimmed (cs : List Char) : Prop :=
  (∀ c, cs.head? = some c → isBlank c = false) ∧ ∀ c, cs.getLast? = some c → isBlank c = false

instance (cs : List Char) : Decidable (Trimmed cs) :=
  decidable_of_iff ((cs.head?.all fun c => !isBlank c) ∧ cs.getLast?.all fun c => !isBlank c)
    (by simp [Trimmed, Option.all_eq_true])

theorem trimEnd_eq_self {cs : List Char}
    (last : ∀ c, cs.getLast? = some c → isBlank c = false) : trimEnd cs = cs := by
  induction cs with
  | nil => rfl
  | cons c rest ih =>
      cases rest with
      | nil => simp [trimEnd, last c rfl]
      | cons d rest => rw [trimEnd, ih fun e he => last e (by simpa using he)]

theorem trimStart_eq_self {cs : List Char}
    (first : ∀ c, cs.head? = some c → isBlank c = false) : trimStart cs = cs := by
  cases cs with
  | nil => rfl
  | cons c rest => simp [trimStart, first c rfl]

theorem trim_eq_self {cs : List Char} (h : Trimmed cs) : trim cs = cs := by
  rw [trim, trimStart_eq_self h.1, trimEnd_eq_self h.2]

theorem Trimmed.of_forall {cs : List Char} (h : ∀ c ∈ cs, isBlank c = false) : Trimmed cs :=
  ⟨fun c hc => h c (List.mem_of_mem_head? hc), fun c hc => h c (List.mem_of_getLast? hc)⟩

/-- Only the ends of a text decide whether it is trimmed. -/
theorem Trimmed.append {a b : List Char} (ha : Trimmed a) (hb : Trimmed b) (middle : List Char)
    (nonemptyA : a ≠ []) (nonemptyB : b ≠ []) : Trimmed (a ++ middle ++ b) := by
  constructor
  · intro c hc
    apply ha.1 c
    cases a with
    | nil => exact absurd rfl nonemptyA
    | cons d rest => simpa using hc
  · intro c hc
    apply hb.2 c
    rw [List.getLast?_append] at hc
    cases last : b.getLast? with
    | none => exact absurd (List.getLast?_eq_none_iff.1 last) nonemptyB
    | some d => simpa [last] using hc

/-! White space around a trimmed text. -/

def Blanks (cs : List Char) : Prop := ∀ c ∈ cs, isBlank c

instance (cs : List Char) : Decidable (Blanks cs) := List.decidableBAll _ cs

theorem blanks_nil : Blanks [] := List.forall_mem_nil _

theorem blanks_singleton {c : Char} : Blanks [c] ↔ isBlank c := List.forall_mem_singleton

theorem not_mem_of_blanks {c : Char} (visible : isBlank c = false) {cs : List Char}
    (h : Blanks cs) : c ∉ cs := by
  intro present
  rw [h c present] at visible
  cases visible

theorem trimEnd_concat (cs : List Char) (c : Char) :
    trimEnd (cs ++ [c]) = if isBlank c then trimEnd cs else cs ++ [c] := by
  induction cs with
  | nil => rfl
  | cons d rest ih =>
      rw [List.cons_append, trimEnd, ih]
      by_cases blank : isBlank c
      · rw [if_pos blank, if_pos blank, trimEnd]
      · rw [if_neg blank, if_neg blank]
        split
        · simp_all
        · rfl

theorem trimEnd_eq_rdropWhile (cs : List Char) : trimEnd cs = cs.rdropWhile isBlank := by
  induction cs using List.reverseRecOn with
  | nil => rfl
  | append_singleton init c ih => rw [trimEnd_concat, List.rdropWhile_concat, ih]

theorem trimStart_append {before cs : List Char} (front : Blanks before)
    (first : ∀ c, cs.head? = some c → isBlank c = false) : trimStart (before ++ cs) = cs := by
  rw [trimStart, List.dropWhile_append_of_pos front, ← trimStart, trimStart_eq_self first]

theorem trimStart_eq_cons {c : Char} (visible : isBlank c = false) {cs rest : List Char} :
    trimStart cs = c :: rest ↔ ∃ blanks, cs = blanks ++ c :: rest ∧ Blanks blanks := by
  constructor
  · intro h
    refine ⟨cs.takeWhile isBlank, ?_, fun d => List.mem_takeWhile_imp⟩
    rw [← h, trimStart, List.takeWhile_append_dropWhile]
  · rintro ⟨blanks, rfl, front⟩
    exact trimStart_append front (by simp [visible])

theorem trimEnd_append {cs after : List Char} (back : Blanks after)
    (last : ∀ c, cs.getLast? = some c → isBlank c = false) : trimEnd (cs ++ after) = cs := by
  induction after using List.reverseRecOn with
  | nil => rw [List.append_nil, trimEnd_eq_self last]
  | append_singleton init c ih =>
      obtain ⟨others, blank⟩ := List.forall_mem_append.1 back
      rw [← List.append_assoc, trimEnd_concat, if_pos (blank c List.mem_cons_self)]
      exact ih others

theorem trim_padded {t before after : List Char} (h : Trimmed t) (front : Blanks before)
    (back : Blanks after) : trim (before ++ t ++ after) = t := by
  cases t with
  | nil =>
      have blanks : Blanks (before ++ after) := List.forall_mem_append.2 ⟨front, back⟩
      rw [trim, List.append_nil, trimStart, List.dropWhile_eq_nil_iff.2 blanks]
      rfl
  | cons c rest =>
      have first : ∀ d, (c :: rest ++ after).head? = some d → isBlank d = false := h.1
      rw [trim, List.append_assoc, trimStart_append front first, trimEnd_append back h.2]

theorem trim_eq_iff {cs t : List Char} :
    trim cs = t ↔
      ∃ before after, cs = before ++ t ++ after ∧ Blanks before ∧ Blanks after ∧ Trimmed t := by
  constructor
  · rintro rfl
    have split : trim cs ++ (trimStart cs).rtakeWhile isBlank = trimStart cs := by
      rw [trim, trimEnd_eq_rdropWhile, List.rdropWhile_append_rtakeWhile]
    refine ⟨cs.takeWhile isBlank, (trimStart cs).rtakeWhile isBlank, ?_,
      fun c => List.mem_takeWhile_imp, fun c => List.mem_rtakeWhile_imp, ?_, ?_⟩
    · rw [List.append_assoc, split, trimStart, List.takeWhile_append_dropWhile]
    · intro c first
      have front : (cs.dropWhile isBlank).head? = some c := by
        rw [← trimStart, ← split, List.head?_append, first, Option.some_or]
      have stops := List.head?_dropWhile_not isBlank cs
      rw [front] at stops
      simpa using stops
    · intro c last
      rw [trim, trimEnd_eq_rdropWhile] at last
      obtain ⟨nonempty, rfl⟩ := List.mem_getLast?_eq_getLast last
      simpa using List.rdropWhile_last_not isBlank _ nonempty
  · rintro ⟨before, after, rfl, front, back, trimmed⟩
    exact trim_padded trimmed front back

theorem exists_padding (cs : List Char) :
    ∃ before after, cs = before ++ trim cs ++ after ∧ Blanks before ∧ Blanks after ∧
      Trimmed (trim cs) := by
  rw [← trim_eq_iff]

theorem trimmed_trim (cs : List Char) : Trimmed (trim cs) := by
  obtain ⟨_, _, -, -, -, trimmed⟩ := exists_padding cs
  exact trimmed

/-- Blanks around a text are not noticed. -/
theorem trim_around {before after : List Char} (front : Blanks before) (back : Blanks after)
    (cs : List Char) : trim (before ++ cs ++ after) = trim cs := by
  obtain ⟨first, last, split, blankFirst, blankLast, trimmed⟩ := exists_padding cs
  have padded : before ++ cs ++ after = before ++ first ++ trim cs ++ (last ++ after) := by
    rw [congrArg (before ++ · ++ after) split]
    simp only [List.append_assoc]
  rw [padded]
  exact trim_padded trimmed (List.forall_mem_append.2 ⟨front, blankFirst⟩)
    (List.forall_mem_append.2 ⟨blankLast, back⟩)

theorem trim_cons {c : Char} (blank : isBlank c) (cs : List Char) : trim (c :: cs) = trim cs := by
  rw [← List.append_nil (c :: cs)]
  exact trim_around (blanks_singleton.2 blank) blanks_nil cs

theorem trim_concat {c : Char} (blank : isBlank c) (cs : List Char) :
    trim (cs ++ [c]) = trim cs :=
  trim_around blanks_nil (blanks_singleton.2 blank) cs

theorem trim_eq_nil_iff {cs : List Char} : trim cs = [] ↔ Blanks cs := by
  rw [trim_eq_iff]
  constructor
  · rintro ⟨before, after, rfl, front, back, -⟩
    rw [List.append_nil]
    exact List.forall_mem_append.2 ⟨front, back⟩
  · intro blank
    exact ⟨cs, [], by simp, blank, blanks_nil, by simp [Trimmed]⟩

end DesignTokens.Text
