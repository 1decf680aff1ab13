import DesignTokens.Text.Pieces

/-!
Taking apart a text that was put together: what stands at either end can be dropped again, and a
separator is found behind a part in which it does not occur, or in front of one.
-/
namespace DesignTokens.Text

theorem dropStart?_eq_some {start cs rest : List Char} :
    dropStart? start cs = some rest ↔ cs = start ++ rest := by
  induction start generalizing cs with
  | nil => exact ⟨Option.some.inj, congrArg some⟩
  | cons s start ih =>
      cases cs with
      | nil => exact ⟨fun h => (nomatch h), fun h => (nomatch h)⟩
      | cons c cs =>
          have step : dropStart? (s :: start) (c :: cs) =
              if s == c then dropStart? start cs else none := rfl
          rw [step]
          by_cases same : s = c
          · simp [same, ih]
          · simp [same, Ne.symm same]

theorem dropEnd?_eq_some {ending cs rest : List Char} :
    dropEnd? ending cs = some rest ↔ cs = rest ++ ending := by
  have mirrored (front : List Char) :
      ending.reverse.isPrefixOf? cs.reverse = some front ↔ cs.reverse = ending.reverse ++ front :=
    dropStart?_eq_some
  simp only [dropEnd?, Option.map_eq_some_iff, mirrored]
  constructor
  · intro h
    obtain ⟨front, hcs, rfl⟩ := h
    rw [← List.reverse_reverse cs, hcs, List.reverse_append, List.reverse_reverse]
  · intro h
    exact ⟨rest.reverse, by rw [h, List.reverse_append], List.reverse_reverse rest⟩

theorem splitFirst_append {sep : Char} {before : List Char} (new : sep ∉ before)
    (after : List Char) : splitFirst sep (before ++ sep :: after) = some (before, after) := by
  induction before with
  | nil => simp [splitFirst]
  | cons c rest ih =>
      obtain ⟨hc, hrest⟩ := List.ne_and_not_mem_of_not_mem_cons new
      simp [splitFirst, Ne.symm hc, ih hrest]

theorem splitLast_eq_none {sep : Char} {cs : List Char} :
    splitLast sep cs = none ↔ sep ∉ cs := by
  induction cs with
  | nil => simp [splitLast]
  | cons c rest ih =>
      cases found : splitLast sep rest with
      | none =>
          have absent := ih.1 found
          simp [splitLast, found, absent, eq_comm]
      | some parts =>
          have present : sep ∈ rest := by
            rw [splitLast_eq_some found]
            exact List.mem_append_right _ List.mem_cons_self
          simp [splitLast, found, present]

theorem splitLast_append {sep : Char} {after : List Char} (last : sep ∉ after)
    (before : List Char) : splitLast sep (before ++ sep :: after) = some (before, after) := by
  induction before with
  | nil =>
      rw [List.nil_append, splitLast, splitLast_eq_none.2 last]
      exact if_pos rfl
  | cons c rest ih => rw [List.cons_append, splitLast, ih]

theorem not_mem_of_splitLast {sep : Char} {cs before after : List Char}
    (h : splitLast sep cs = some (before, after)) : sep ∉ after := by
  induction cs generalizing before with
  | nil => cases h
  | cons c rest ih =>
      cases found : splitLast sep rest with
      | none =>
          simp only [splitLast, found, Option.ite_none_right_eq_some, Option.some.injEq,
            Prod.mk.injEq] at h
          obtain ⟨-, -, rfl⟩ := h
          exact splitLast_eq_none.1 found
      | some parts =>
          simp only [splitLast, found, Option.some.injEq, Prod.mk.injEq] at h
          obtain ⟨-, rfl⟩ := h
          exact ih found

theorem splitLast_iff {sep : Char} {cs before after : List Char} :
    splitLast sep cs = some (before, after) ↔ cs = before ++ sep :: after ∧ sep ∉ after := by
  constructor
  · intro h
    exact ⟨splitLast_eq_some h, not_mem_of_splitLast h⟩
  · rintro ⟨rfl, last⟩
    exact splitLast_append last before

/-- A separator that occurs in neither of two parts ends both. -/
theorem append_sep_inj {sep : Char} {a b rest rest' : List Char} (ha : sep ∉ a) (hb : sep ∉ b)
    (h : a ++ sep :: rest = b ++ sep :: rest') : a = b ∧ rest = rest' := by
  have split := splitFirst_append ha rest
  rw [h, splitFirst_append hb] at split
  obtain ⟨rfl, rfl⟩ := Prod.mk.inj (Option.some.inj split)
  exact ⟨rfl, rfl⟩

theorem pieces_append {p : Char → Bool} {before : List Char} (plain : ∀ c ∈ before, p c = false)
    {sep : Char} (hsep : p sep) (after : List Char) :
    pieces p (before ++ sep :: after) = before :: pieces p after := by
  induction before with
  | nil => simp [pieces, hsep]
  | cons c rest ih =>
      obtain ⟨hc, hrest⟩ := List.forall_mem_cons.1 plain
      simp [pieces, hc, ih hrest]

theorem pieces_join {p : Char → Bool} {sep : Char} (hsep : p sep) (before after : List Char) :
    pieces p (before ++ sep :: after) = pieces p before ++ pieces p after := by
  induction before with
  | nil => simp [pieces, hsep]
  | cons c rest ih =>
      rw [List.cons_append, pieces, pieces, ih]
      split
      · rfl
      · cases first : pieces p rest with
        | nil => exact absurd first (pieces_ne_nil p rest)
        | cons piece others => rfl

theorem pieces_of_forall_not {p : Char → Bool} {cs : List Char} (h : ∀ c ∈ cs, p c = false) :
    pieces p cs = [cs] := by
  induction cs with
  | nil => rfl
  | cons c rest ih =>
      obtain ⟨hc, hrest⟩ := List.forall_mem_cons.1 h
      simp [pieces, hc, ih hrest]

theorem length_le_of_mem_pieces {p : Char → Bool} {cs piece : List Char}
    (h : piece ∈ pieces p cs) : piece.length ≤ cs.length := by
  induction cs generalizing piece with
  | nil => simp_all [pieces]
  | cons c rest ih =>
      rw [pieces] at h
      rw [List.length_cons]
      split at h
      · rcases List.mem_cons.1 h with rfl | h
        · exact Nat.zero_le _
        · exact Nat.le_succ_of_le (ih h)
      · split at h
        · rename_i none
          exact absurd none (pieces_ne_nil p rest)
        · rename_i first others some
          rcases List.mem_cons.1 h with rfl | h
          · exact Nat.succ_le_succ (ih (some ▸ List.mem_cons_self))
          · exact Nat.le_succ_of_le (ih (some ▸ List.mem_cons_of_mem _ h))

theorem not_of_mem_pieces {p : Char → Bool} {cs piece : List Char} (h : piece ∈ pieces p cs) :
    ∀ c ∈ piece, p c = false := by
  induction cs generalizing piece with
  | nil => simp_all [pieces]
  | cons c rest ih =>
      rw [pieces] at h
      cases hc : p c with
      | true =>
          rw [hc, if_pos rfl] at h
          rcases List.mem_cons.1 h with rfl | h
          · simp
          · exact ih h
      | false =>
          rw [hc, if_neg Bool.false_ne_true] at h
          split at h
          · rename_i none
            exact absurd none (pieces_ne_nil p rest)
          · rename_i first others some
            rcases List.mem_cons.1 h with rfl | h
            · exact List.forall_mem_cons.2 ⟨hc, ih (some ▸ List.mem_cons_self)⟩
            · exact ih (some ▸ List.mem_cons_of_mem _ h)

theorem pieces_eq_splitOn (sep : Char) (cs : List Char) : pieces (· = sep) cs = cs.splitOn sep := by
  rw [List.splitOn_eq_splitOnP]
  induction cs with
  | nil => rfl
  | cons c rest ih =>
      rw [pieces, ih, List.splitOnP_cons_eq_if_modifyHead]
      by_cases hc : c = sep
      · simp [hc]
      · cases found : rest.splitOnP (· == sep) with
        | nil => exact absurd (ih.trans found) (pieces_ne_nil _ rest)
        | cons piece others => simp [hc]

/-- The pieces are the texts without separators that are the whole with one between every two. -/
theorem pieces_eq_iff {sep : Char} {cs : List Char} {parts : List (List Char)} :
    pieces (· = sep) cs = parts ↔
      parts ≠ [] ∧ (∀ part ∈ parts, sep ∉ part) ∧ [sep].intercalate parts = cs := by
  constructor
  · rintro rfl
    refine ⟨pieces_ne_nil _ cs, fun part hpart present => ?_, ?_⟩
    · simpa using not_of_mem_pieces hpart sep present
    · rw [pieces_eq_splitOn, List.intercalate_splitOn]
  · rintro ⟨nonempty, plain, rfl⟩
    rw [pieces_eq_splitOn, List.splitOn_intercalate sep plain nonempty]

theorem intercalate_cons (sep : Char) (first : List Char) (rest : List (List Char)) :
    [sep].intercalate (first :: rest) = first ++ rest.flatMap (sep :: ·) := by
  induction rest generalizing first with
  | nil => simp
  | cons next rest ih => rw [List.intercalate_cons_cons, ih]; simp

end DesignTokens.Text
