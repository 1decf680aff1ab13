import DesignTokens.Proofs.ScannedScalars

/-!
Parts of block text: keys with what stands under them and the entries of lists. Each is scanned into
the tokens that stand for it and leaves the scan where the next part begins, so that the tokens of a
whole text are put together from its end.
-/
namespace DesignTokens.Yaml

namespace Scan

/-- From `rest` on scans find the tokens `out`. -/
def Yields (rest : List Char) (column : Nat) (columns : List Nat) (out : List Token) : Prop :=
  ∀ (s t : Scan) (tokens : List Token) (fuel : Nat), s.settle = .ok t →
    t.Stands rest column columns tokens true → rest.length < fuel →
      s.run fuel = .ok (tokens.reverse ++ out)

variable {s t : Scan} {name rest next cs : List Char} {column column' : Nat}
  {columns columns' : List Nat} {tokens marks out : List Token}

theorem closing_reverse (column : Nat) (columns : List Nat) :
    (closing column columns).reverse = closing column columns := by
  rw [closing, List.map_const', List.reverse_replicate]

/-- At the end all collections are closed. -/
theorem yields_nil : Yields [] column columns (columns.map fun _ => .blockEnd) := by
  intro s t tokens fuel settled h fits
  obtain ⟨fuel, rfl⟩ := Nat.exists_eq_succ_of_ne_zero (Nat.ne_of_gt fits)
  have kept : (t.closeBlocks fun _ => true).key = none := by
    rw [closeBlocks]
    split <;> exact h.key
  have closed : (t.closeBlocks fun _ => true).tokens =
      columns.map (fun _ => .blockEnd) ++ tokens := by
    have all : columns.takeWhile (fun _ => true) = columns := by simp
    rw [closeBlocks, inFlow_eq_false h.flat, if_neg Bool.false_ne_true, h.columns, h.tokens, all]
  rw [run, settled]
  refine bind_eq_ok.2 ⟨t, rfl, ?_⟩
  rw [h.rest]
  have dropped : (t.closeBlocks fun _ => true).dropKey =
      .ok { t.closeBlocks fun _ => true with key := none } := by
    rw [dropKey, kept]
    rfl
  refine bind_eq_ok.2 ⟨_, bind_eq_ok.2 ⟨_, dropped, rfl⟩, ?_⟩
  · refine congrArg Except.ok ((congrArg List.reverse closed).trans ?_)
    rw [List.reverse_append, List.map_const', List.reverse_replicate]

theorem startsToken_writeScalar (indent : Nat) (cs next : List Char) :
    StartsToken (writeScalar indent cs ++ next) := by
  rw [writeScalar]
  have fits := fits_formOf cs
  generalize formOf cs = form at fits ⊢
  cases fits with
  | plain notEmpty fits =>
      cases cs with
      | nil => exact absurd rfl notEmpty
      | cons c cs =>
          obtain ⟨noGap, opens⟩ := opensPlain_of_fits fits next
          simp only [fitsPlain, Bool.and_eq_true] at fits
          have printable := List.all_eq_true.1 fits.1.1.1.1.1 c List.mem_cons_self
          refine startsToken_cons.2 ⟨noGap, ?_, ?_⟩
          · rintro rfl
            rcases opens with opens | ⟨opens, -⟩ <;> exact absurd opens (by decide)
          · rintro rfl
            exact absurd printable (by decide)
  | singleQuoted => exact startsToken_cons.2 (by decide)
  | doubleQuoted => exact startsToken_cons.2 (by decide)
  | literal => exact startsToken_cons.2 (by decide)

theorem Opens.head (h : Opens column columns columns' marks) :
    ∃ outer, columns' = column :: outer := by
  cases h with
  | again h =>
      cases columns with
      | nil => cases h
      | cons outer columns => exact ⟨columns, by rw [Option.some.inj h]⟩
  | anew => exact ⟨columns, rfl⟩

theorem Opens.marks_reverse (h : Opens column columns columns' marks) : marks.reverse = marks := by
  cases h <;> rfl

theorem Stands.skipSpace {allowed : Bool} {outer : Nat}
    (h : s.Stands (' ' :: rest) column (outer :: columns) tokens allowed) (inner : outer ≤ column)
    (starts : StartsToken rest) :
    ∃ t, s.settle = .ok t ∧ t.Stands rest (column + 1) (outer :: columns) tokens allowed := by
  have within : ∀ other ∈ (outer :: columns).head?, other ≤ column + 1 := by
    intro other here
    rw [← Option.some.inj here]
    exact Nat.le_succ_of_le inner
  obtain ⟨t, settled, stands⟩ := @Stands.settle s [' '] rest column _ _ _ h
    (List.forall_mem_singleton.2 (Or.inl rfl)) starts
  have passed : columnAfter column [' '] = column + 1 := rfl
  rw [passed, leftOpen_eq_self within, closing_eq_nil within] at stands
  refine ⟨t, settled, ?_⟩
  simpa [isBreak_space] using stands

theorem Stands.nextLine {allowed : Bool} (h : s.Stands ('\n' :: next) column columns tokens allowed)
    (resumes : Resumes column' next rest) :
    ∃ t, s.settle = .ok t ∧ t.Stands rest column' (leftOpen column' columns)
      (closing column' columns ++ tokens) true := by
  obtain ⟨rfl, starts⟩ := resumes
  have feed : isBreak '\n' = true := by decide
  obtain ⟨t, settled, stands⟩ := @Stands.settle s ('\n' :: spaces column') rest column _ _ _ h
    (List.forall_mem_cons.2 ⟨Or.inr feed, fun c hc => Or.inl (mem_spaces hc)⟩) starts
  have passed : columnAfter column ('\n' :: spaces column') = column' := columnAfter_line feed []
  rw [passed, List.any_cons, feed, Bool.true_or, Bool.or_true] at stands
  exact ⟨t, settled, stands⟩

theorem Finds.run {fuel : Nat} (h : t.Finds rest column columns tokens)
    (settled : s.settle = .ok t) (after : Yields rest column columns out)
    (fits : rest.length < fuel) : s.run (fuel + 1) = .ok (tokens.reverse ++ out) := by
  obtain ⟨c, more, u, v, text, found, settles, stands⟩ := h
  rw [run_succ settled text found]
  exact after u v tokens fuel settles stands fits

/-- A key with a text under it. -/
theorem yields_member (keyName : KeyName name) (opens : Opens column columns columns' marks)
    (resumes : Resumes column' next rest) (less : column' ≤ column)
    (after : Yields rest column' (leftOpen column' columns') out) :
    Yields (name ++ ':' :: ' ' :: (writeScalar (column + 2) cs ++ next)) column columns
      (marks ++ .key :: .scalar true name :: .value :: scalarToken cs ::
        (closing column' columns' ++ out)) := by
  intro s t tokens fuel settled h fits
  obtain ⟨outer, rfl⟩ := opens.head
  have size : 0 < name.length := List.length_pos_iff.2 keyName.notEmpty
  simp only [List.length_append, List.length_cons, resumes.indented] at fits
  obtain ⟨fuel, rfl⟩ : ∃ f, fuel = f + 1 + 2 := ⟨fuel - 3, by omega⟩
  obtain ⟨u, ran, stands⟩ := run_key keyName settled h rfl opens
  obtain ⟨v, settled, stands⟩ :=
    stands.skipSpace (Nat.le_add_right_of_le (Nat.le_add_right _ _)) (startsToken_writeScalar _ _ _)
  have finds := finds_scalar stands (by omega) resumes less
  rw [ran, finds.run settled after (by omega)]
  simp only [List.reverse_append, List.reverse_cons, closing_reverse, opens.marks_reverse,
    List.append_assoc, List.cons_append, List.nil_append]

/-- A key with lines under it that do not stand further left. -/
theorem yields_heading (keyName : KeyName name) (opens : Opens column columns columns' marks)
    (resumes : Resumes column' next rest) (further : column ≤ column')
    (after : Yields rest column' columns' out) :
    Yields (name ++ ':' :: '\n' :: next) column columns
      (marks ++ .key :: .scalar true name :: .value :: out) := by
  intro s t tokens fuel settled h fits
  obtain ⟨outer, rfl⟩ := opens.head
  simp only [List.length_append, List.length_cons, resumes.indented] at fits
  obtain ⟨fuel, rfl⟩ : ∃ f, fuel = f + 2 := ⟨fuel - 2, by omega⟩
  obtain ⟨u, ran, stands⟩ := run_key keyName settled h rfl opens
  obtain ⟨v, settled, stands⟩ := stands.nextLine resumes
  have within : ∀ other ∈ (column :: outer).head?, other ≤ column' := by
    intro other here
    rwa [← Option.some.inj here]
  rw [leftOpen_eq_self within, closing_eq_nil within] at stands
  rw [ran, after u v _ fuel settled stands (by omega)]
  simp only [List.reverse_append, List.reverse_cons, opens.marks_reverse, List.append_assoc,
    List.cons_append, List.nil_append]

theorem Stands.takeEntry
    (h : s.Stands ('-' :: ' ' :: rest) column (column :: columns) tokens true) :
    ∃ t, s.token '-' (' ' :: rest) = .ok t ∧
      t.Stands (' ' :: rest) (column + 1) (column :: columns) (.entry :: tokens) true := by
  have noMark : startsDocumentMark ('-' :: ' ' :: rest) = false := rfl
  have ends : startsGap (' ' :: rest) = true := rfl
  have dispatched : s.token '-' (' ' :: rest) = s.entry := by simp [token, noMark, ends]
  have opened : s.openBlock s.cursor.column push .blockSequence = s :=
    openBlock_again (by rw [h.columns, h.column]; rfl)
  have dropped : s.dropKey = .ok { s with key := none } := by
    rw [dropKey, h.key]
    rfl
  have passed := @passed_skip s.cursor ['-'] (' ' :: rest) h.rest
  rw [dispatched, entry, h.allowed, opened]
  simp only [Bool.not_true, Bool.and_false, Bool.false_eq_true, if_false]
  refine ⟨_, bind_eq_ok.2 ⟨_, dropped, rfl⟩, passed.rest, ?_, h.columns, ?_, rfl, rfl, h.flat⟩
  · refine passed.column.trans ?_
    rw [h.column]
    rfl
  · exact congrArg _ h.tokens

/-- An entry of a list that stands below its key. -/
theorem yields_entry (resumes : Resumes column' next rest) (less : column' ≤ column)
    (after : Yields rest column' (leftOpen column' (column :: columns)) out) :
    Yields ('-' :: ' ' :: (writeScalar (column + 2) cs ++ next)) column (column :: columns)
      (.entry :: scalarToken cs :: (closing column' (column :: columns) ++ out)) := by
  intro s t tokens fuel settled h fits
  simp only [List.length_append, List.length_cons, resumes.indented] at fits
  obtain ⟨fuel, rfl⟩ : ∃ f, fuel = f + 1 + 1 := ⟨fuel - 2, by omega⟩
  obtain ⟨u, found, stands⟩ := h.takeEntry
  obtain ⟨v, settles, stands⟩ := stands.skipSpace (Nat.le_succ _) (startsToken_writeScalar _ _ _)
  have finds := finds_scalar stands (by omega) resumes less
  rw [run_succ settled h.rest found, finds.run settles after (by omega)]
  simp only [List.reverse_append, List.reverse_cons, closing_reverse, List.append_assoc,
    List.cons_append, List.nil_append]

theorem run_emptyList {fuel : Nat} (settled : s.settle = .ok t)
    (h : t.Stands ('[' :: ']' :: rest) column columns tokens false) :
    ∃ u : Scan, s.run (fuel + 2) = u.run fuel ∧
      u.Stands rest (column + 2) columns (.flowSequenceEnd :: .flowSequence :: tokens) false := by
  have noMark : startsDocumentMark ('[' :: ']' :: rest) = false :=
    startsDocumentMark_eq_false (by decide) (by decide)
  let inside : Scan :=
    { t with
      cursor := t.cursor.skip 1
      tokens := .flowSequence :: t.tokens
      key := none
      outerKeys := [none]
      keyAllowed := true }
  have entered : t.token '[' (']' :: rest) = .ok inside := by
    have dispatched : t.token '[' (']' :: rest) = t.openFlow .flowSequence := by
      simp [token, noMark]
    have outer : t.key :: t.outerKeys = [none] := by rw [h.key, h.flat]
    rw [dispatched, openFlow, saveKey_of_not_allowed h.allowed]
    refine congrArg Except.ok ?_
    simp only [outer, inside, push, skip]
  have passed := @passed_skip t.cursor ['['] (']' :: rest) h.rest
  have stays := @passed_skipTo inside.cursor [] (']' :: rest) passed.rest
  let closer : Scan := { inside with cursor := inside.cursor.skipTo (']' :: rest) }
  have waited : inside.settle = .ok closer := by
    have gapless : skipGaps inside.inFlow false inside.keyAllowed inside.cursor.column
        inside.cursor.rest = (']' :: rest, true) := by
      rw [show inside.cursor.rest = ']' :: rest from passed.rest]
      rfl
    rw [settle, gapless]
    rfl
  have left : closer.token ']' rest = closer.closeFlow .flowSequenceEnd := by
    have noMark : startsDocumentMark (']' :: rest) = false :=
      startsDocumentMark_eq_false (by decide) (by decide)
    simp [token, noMark]
  have behind := @passed_skip closer.cursor [']'] rest stays.rest
  refine ⟨_, (run_succ settled h.rest entered).trans (run_succ waited stays.rest (left.trans rfl)),
    behind.rest, ?_, h.columns, ?_, rfl, rfl, rfl⟩
  · have within : inside.cursor.column = column + 1 := passed.column.trans (by rw [h.column]; rfl)
    refine behind.column.trans ?_
    rw [stays.column, columnAfter, within]
    rfl
  · exact congrArg (Token.flowSequenceEnd :: Token.flowSequence :: ·) h.tokens

/-- A key with an empty list behind it. -/
theorem yields_emptyList (keyName : KeyName name) (opens : Opens column columns columns' marks)
    (resumes : Resumes column' next rest)
    (after : Yields rest column' (leftOpen column' columns') out) :
    Yields (name ++ ':' :: ' ' :: '[' :: ']' :: '\n' :: next) column columns
      (marks ++ .key :: .scalar true name :: .value :: .flowSequence :: .flowSequenceEnd ::
        (closing column' columns' ++ out)) := by
  intro s t tokens fuel settled h fits
  obtain ⟨outer, rfl⟩ := opens.head
  simp only [List.length_append, List.length_cons, resumes.indented] at fits
  obtain ⟨fuel, rfl⟩ : ∃ f, fuel = f + 2 + 2 := ⟨fuel - 4, by omega⟩
  obtain ⟨u, ran, stands⟩ := @run_key _ _ _ _ _ _ _ (fuel + 2) keyName settled h rfl _ _ opens
  obtain ⟨v, settled, stands⟩ := stands.skipSpace
    (Nat.le_add_right_of_le (Nat.le_add_right _ _)) (startsToken_cons.2 (by decide))
  obtain ⟨w, ran', stands⟩ := @run_emptyList _ _ _ _ _ _ fuel settled stands
  obtain ⟨x, settled, stands⟩ := stands.nextLine resumes
  rw [ran, ran', after w x _ fuel settled stands (by omega)]
  simp only [List.reverse_append, List.reverse_cons, closing_reverse, opens.marks_reverse,
    List.append_assoc, List.cons_append, List.nil_append]

theorem tokens_of_yields (printable : Printable cs) (starts : StartsToken cs)
    (yields : Yields cs 0 [] out) : Yaml.tokens cs = .ok out := by
  obtain ⟨t, settled, stands⟩ := @Stands.settle { cursor := { rest := cs } } [] cs 0 [] [] true
    ⟨rfl, rfl, rfl, rfl, rfl, rfl, rfl⟩ (List.forall_mem_nil _) starts
  exact bind_eq_ok.2 ⟨cs, prepare_of_printable printable,
    yields _ t [] _ settled stands (Nat.lt_succ_self _)⟩

end Scan

end DesignTokens.Yaml
