import DesignTokens.Proofs.WrittenScalars

/-!
Literal blocks read back. The heading that is written for a text tells how far its lines are
indented where they do not show it themselves, and what its last line breaks are; so the lines give
the text again, and the reading stops at the first line that belongs to something else.
-/
namespace DesignTokens.Yaml

section Lines

variable {header : BlockHeader} {indent column : Nat} {spaced : Bool} {gap : LineGap}
  {cs rest next : List Char} {c : Char}

theorem between_of_literal (literal : header.folded = false) (spaced : Bool) (gap : LineGap) :
    gap.between header.folded spaced = gap.first ++ gap.blank := by
  rw [LineGap.between, literal]
  rfl

/-- In a literal block it does not matter which lines begin with white space. -/
theorem readBlock_unfolded (literal : header.folded = false) (gap : Option LineGap) :
    readBlock header indent spaced gap cs = readBlock header indent false gap cs := by
  induction cs generalizing gap spaced with
  | nil => cases gap <;> rfl
  | cons c rest ih =>
      cases gap with
      | none =>
          rw [readBlock, readBlock, @ih spaced, @ih spaced]
      | some gap =>
          rw [readBlock, readBlock, between_of_literal literal, between_of_literal literal,
            @ih spaced, @ih spaced]

theorem readBlock_spaces {n : Nat} (fits : gap.column + n ≤ indent) :
    readBlock header indent spaced (some gap) (spaces n ++ rest) =
      readBlock header indent spaced (some { gap with column := gap.column + n }) rest := by
  induction n generalizing gap with
  | zero => rfl
  | succ n ih =>
      have less : gap.column < indent := by omega
      have counted : gap.column + 1 + n = gap.column + (n + 1) := by omega
      rw [spaces_succ, List.cons_append, readBlock, isBreak_space, if_neg Bool.false_ne_true,
        if_pos less, if_pos rfl, ih (by rw [counted]; exact fits)]
      simp only [counted]

theorem readBlock_breaks (breaks : ∀ c ∈ cs, isBreak c = true) (start : gap.column = 0) :
    readBlock header indent spaced (some gap) (cs ++ rest) =
      readBlock header indent spaced (some { gap with blank := gap.blank ++ cs }) rest := by
  induction cs generalizing gap with
  | nil => simp
  | cons c cs ih =>
      obtain ⟨broken, breaks⟩ := List.forall_mem_cons.1 breaks
      rw [List.cons_append, readBlock, if_pos broken, ih breaks rfl]
      simp only [List.append_assoc, List.singleton_append, start]

/-- A line that is indented less ends the block. -/
theorem readBlock_resumes (less : column < indent) (h : Resumes column next rest)
    (start : gap.column = 0) :
    readBlock header indent spaced (some gap) next = .ok (gap.atEnd header.chomp, rest) := by
  obtain ⟨rfl, starts⟩ := h
  rw [readBlock_spaces (by omega)]
  cases rest with
  | nil => rfl
  | cons c rest =>
      obtain ⟨noGap, -⟩ := startsToken_cons.1 starts
      have noSpace : c ≠ ' ' := ne_of_isGap noGap (by decide)
      have noTab : c ≠ '\t' := ne_of_isGap noGap (by decide)
      rw [readBlock, isBreak_eq_false_of_isGap noGap, if_neg Bool.false_ne_true,
        if_pos (by simpa [start] using less), if_neg noSpace, if_neg noTab]
      rfl

/-- The line breaks that the reading has behind it since the last other character. -/
def pendingBreaks : Option LineGap → List Char
  | none => []
  | some gap => gap.first ++ gap.blank

theorem writeLines_char {newLine : Bool} (h : isBreak c = false) :
    writeLines indent newLine (c :: cs) =
      indentation indent newLine ++ c :: writeLines indent false cs := by
  rw [writeLines, if_neg (by rw [h]; exact Bool.false_ne_true)]
  rfl

theorem writeLines_break {newLine : Bool} (h : isBreak c = true) :
    writeLines indent newLine (c :: cs) = c :: writeLines indent true cs := by
  rw [writeLines, if_pos h]

theorem writeLines_of_breaks (h : ∀ c ∈ cs, isBreak c = true) : writeLines indent true cs = cs := by
  induction cs with
  | nil => rfl
  | cons c cs ih =>
      obtain ⟨broken, h⟩ := List.forall_mem_cons.1 h
      rw [writeLines_break broken, ih h]

theorem readBlock_char (literal : header.folded = false) (h : isBreak c = false)
    {gap : Option LineGap} (start : ∀ g ∈ gap, g.column = 0) :
    readBlock header indent false gap (writeLines indent gap.isSome (c :: cs) ++ next) =
      prepend (pendingBreaks gap ++ [c])
        (readBlock header indent false none (writeLines indent false cs ++ next)) := by
  have noBreak : ¬ isBreak c = true := by rw [h]; exact Bool.false_ne_true
  rw [writeLines_char h]
  cases gap with
  | none => exact (readBlock.eq_3 ..).trans (if_neg noBreak)
  | some gap =>
      have written : indentation indent (some gap).isSome = spaces indent := rfl
      rw [written, List.append_assoc, readBlock_spaces (by rw [start gap rfl]; omega),
        List.cons_append, readBlock, if_neg noBreak, if_neg (by simp [start gap rfl]),
        readBlock_unfolded literal, between_of_literal literal]
      rfl

theorem readBlock_break (h : isBreak c = true) {gap : Option LineGap}
    (start : ∀ g ∈ gap, g.column = 0) :
    ∃ g : LineGap, g.column = 0 ∧ pendingBreaks (some g) = pendingBreaks gap ++ [c] ∧
      readBlock header indent false gap (writeLines indent gap.isSome (c :: cs) ++ next) =
        readBlock header indent false (some g) (writeLines indent true cs ++ next) := by
  rw [writeLines_break h, List.cons_append]
  cases gap with
  | none =>
      refine ⟨{ first := [c] }, rfl, rfl, ?_⟩
      rw [readBlock, if_pos h]
  | some gap =>
      refine ⟨{ gap with blank := gap.blank ++ [c], column := 0 }, rfl, ?_, ?_⟩
      · exact (List.append_assoc ..).symm
      · rw [readBlock, if_pos h]

theorem prepend_prepend (front more : List Char) (step : Step (List Char)) :
    prepend front (prepend more step) = prepend (front ++ more) step := by
  cases step <;> simp [prepend, Except.map]

/-- The lines up to the last character that ends none. -/
theorem readBlock_body (literal : header.folded = false) {body tail : List Char}
    (h : isBreak c = false) {gap : Option LineGap} (start : ∀ g ∈ gap, g.column = 0) :
    readBlock header indent false gap (writeLines indent gap.isSome (body ++ c :: tail) ++ next) =
      prepend (pendingBreaks gap ++ body ++ [c])
        (readBlock header indent false none (writeLines indent false tail ++ next)) := by
  induction body generalizing gap with
  | nil =>
      rw [List.append_nil]
      exact readBlock_char literal h start
  | cons d body ih =>
      rw [List.cons_append]
      cases broken : isBreak d with
      | true =>
          obtain ⟨g, start, pending, same⟩ := readBlock_break broken start
          have later := @ih (some g) fun _ here => Option.some.inj here ▸ start
          rw [pending, List.append_assoc _ [d], List.singleton_append] at later
          exact same.trans later
      | false =>
          rw [readBlock_char literal broken start]
          refine (congrArg _ (@ih none fun _ none => (nomatch none))).trans ?_
          rw [prepend_prepend]
          simp only [pendingBreaks, List.nil_append, List.append_assoc, List.cons_append]

end Lines

section Headings

variable {indent column parent : Nat} {cs rest next : List Char}

/-- What the heading says about the line breaks at the end of a text. -/
def chompOf (cs : List Char) : Chomp :=
  match cs.reverse with
  | [] => .strip
  | last :: before =>
    if !isBreak last then .strip
    else
      match before with
      | [] => .keep
      | c :: _ => if isBreak c then .keep else .clip

def headerOf (cs : List Char) : BlockHeader :=
  ⟨false, chompOf cs, if cs.head?.any fun c => isPlainSpace c || isBreak c then some 2 else none⟩

def Chomp.marks : Chomp → List Char
  | .strip => ['-']
  | .clip => []
  | .keep => ['+']

theorem literalMarks_eq (cs : List Char) :
    literalMarks cs =
      (if cs.head?.any fun c => isPlainSpace c || isBreak c then ['2'] else []) ++
        (chompOf cs).marks := by
  unfold literalMarks chompOf
  refine congrArg _ ?_
  cases cs.reverse with
  | nil => rfl
  | cons last before =>
      simp only []
      split
      · rfl
      cases before with
      | nil => rfl
      | cons c _ =>
          simp only []
          split <;> rfl

theorem readBlockHeader_marks (cs rest : List Char) :
    readBlockHeader false (literalMarks cs ++ '\n' :: rest) = .ok (headerOf cs, rest) := by
  rw [literalMarks_eq, headerOf]
  generalize chompOf cs = chomp
  split <;> cases chomp <;> rfl

theorem widestIndent_spaces (widest column n : Nat) :
    widestIndent widest column (spaces n ++ rest) = widestIndent widest (column + n) rest := by
  induction n generalizing column with
  | zero => rfl
  | succ n ih =>
      rw [spaces_succ, List.cons_append, widestIndent, if_pos rfl, ih, Nat.add_assoc,
        Nat.add_comm 1]

/-- Where the heading says nothing the first line shows how far the lines are indented. -/
theorem widestIndent_writeLines (printable : ∀ c ∈ cs, isPrintable c) (notEmpty : cs ≠ [])
    (shown : (headerOf cs).indent = none) :
    widestIndent 0 0 (writeLines indent true cs ++ next) = .ok indent := by
  cases cs with
  | nil => exact absurd rfl notEmpty
  | cons c cs =>
      simp only [headerOf, List.head?_cons, Option.any_some, isPlainSpace, ite_eq_right_iff,
        reduceCtorEq, imp_false, Bool.or_eq_true, decide_eq_true_eq, not_or,
        Bool.not_eq_true] at shown
      obtain ⟨noSpace, noBreak⟩ := shown
      have noTab : c ≠ '\t' := by
        rintro rfl
        exact absurd (printable _ List.mem_cons_self) (by decide)
      have written : indentation indent true = spaces indent := rfl
      rw [writeLines_char noBreak, written, List.append_assoc, widestIndent_spaces,
        List.cons_append, widestIndent, if_neg noSpace, if_neg noTab, noBreak,
        if_neg Bool.false_ne_true, Nat.zero_add, Nat.zero_max]

theorem chompOf_of_breaks (breaks : ∀ c ∈ cs, isBreak c = true) (notEmpty : cs ≠ []) :
    chompOf cs = .keep := by
  rw [chompOf]
  match back : cs.reverse with
  | [] => exact absurd (List.reverse_eq_nil_iff.1 back) notEmpty
  | last :: before =>
      have inBack : ∀ d ∈ last :: before, isBreak d = true := fun d hd =>
        breaks d (List.mem_reverse.1 (back ▸ hd))
      cases before <;> simp [inBack]

theorem chompOf_of_char {c : Char} (h : isBreak c = false) (body : List Char) :
    chompOf (body ++ [c]) = .strip := by
  simp [chompOf, h]

/-- The line breaks behind the last other character of a text are just those that are kept. -/
theorem atEnd_chompOf {c first : Char} {more : List Char} (h : isBreak c = false)
    (breaks : ∀ d ∈ first :: more, isBreak d = true) (body : List Char) :
    LineGap.atEnd (chompOf (body ++ c :: first :: more)) { first := [first], blank := more } =
      first :: more := by
  have back : (body ++ c :: first :: more).reverse =
      more.reverse ++ first :: c :: body.reverse := by simp
  rw [chompOf, back]
  match behind : more.reverse with
  | [] =>
      obtain rfl := List.reverse_eq_nil_iff.1 behind
      simp [breaks first, h, LineGap.atEnd]
  | last :: before =>
      have inMore : ∀ d ∈ last :: before, isBreak d = true := fun d hd =>
        breaks d (List.mem_cons_of_mem first (List.mem_reverse.1 (behind ▸ hd)))
      cases before with
      | nil => simp [inMore last, breaks first, LineGap.atEnd]
      | cons => simp [inMore, LineGap.atEnd]

/-- A text consists of line breaks, or it has a last other character. -/
theorem breaks_or_last (cs : List Char) :
    (∀ c ∈ cs, isBreak c = true) ∨ ∃ body c tail, cs = body ++ c :: tail ∧ isBreak c = false ∧
      ∀ d ∈ tail, isBreak d = true := by
  induction cs with
  | nil => exact Or.inl (List.forall_mem_nil _)
  | cons d cs ih =>
      rcases ih with breaks | ⟨body, c, tail, rfl, h, breaks⟩
      · cases broken : isBreak d with
        | true => exact Or.inl (List.forall_mem_cons.2 ⟨broken, breaks⟩)
        | false => exact Or.inr ⟨[], d, cs, rfl, broken, breaks⟩
      · exact Or.inr ⟨d :: body, c, tail, rfl, h, breaks⟩

theorem readBlock_writeLines (less : column < indent) (h : Resumes column next rest)
    (notEmpty : cs ≠ []) :
    readBlock (headerOf cs) indent false (.some {}) (writeLines indent true cs ++ next) =
      .ok (cs, rest) := by
  have ended : ∀ gap : LineGap, gap.column = 0 →
      readBlock (headerOf cs) indent false (.some gap) next =
        .ok (gap.atEnd (chompOf cs), rest) :=
    fun _ start => readBlock_resumes less h start
  rcases breaks_or_last cs with breaks | ⟨body, c, tail, whole, noBreak, breaks⟩
  · rw [writeLines_of_breaks breaks, readBlock_breaks breaks rfl, ended _ rfl,
      chompOf_of_breaks breaks notEmpty]
    rfl
  · have lines := @readBlock_body (headerOf cs) indent next c rfl body tail noBreak (.some {})
      fun _ here => Option.some.inj here ▸ rfl
    rw [← whole] at lines
    refine lines.trans ?_
    cases tail with
    | nil =>
        have feed : writeLines indent false [] = ['\n'] := rfl
        have strip : chompOf cs = .strip := by rw [whole, chompOf_of_char noBreak]
        rw [feed, List.singleton_append, readBlock, if_pos (by decide), ended _ rfl, strip,
          prepend_ok]
        simp only [pendingBreaks, LineGap.atEnd, List.append_nil, List.nil_append]
        rw [whole]
    | cons first more =>
        have kept := atEnd_chompOf noBreak breaks body
        obtain ⟨broken, moreBreaks⟩ := List.forall_mem_cons.1 breaks
        rw [← whole] at kept
        rw [writeLines_break broken, writeLines_of_breaks moreBreaks, List.cons_append, readBlock,
          if_pos broken, readBlock_breaks moreBreaks rfl, List.nil_append, ended _ rfl, kept,
          prepend_ok]
        simp only [pendingBreaks, List.append_nil, List.nil_append, List.append_assoc,
          List.singleton_append]
        rw [whole]

theorem readBlockText_write (less : column ≤ parent) (h : Resumes column next rest)
    (printable : ∀ c ∈ cs, isPrintable c) (notEmpty : cs ≠ []) :
    readBlockText false (.some parent)
        (literalMarks cs ++ '\n' :: (writeLines (parent + 2) true cs ++ next)) =
      .ok (cs, rest) := by
  have read := @readBlock_writeLines (parent + 2) column cs rest next (by omega) h notEmpty
  rw [readBlockText, readBlockHeader_marks]
  refine bind_eq_ok.2 ⟨_, rfl, ?_⟩
  simp only []
  cases shown : (headerOf cs).indent with
  | some more =>
      obtain rfl : more = 2 := by
        simp only [headerOf, Option.ite_none_right_eq_some] at shown
        exact (Option.some.inj shown.2).symm
      exact read
  | none =>
      simp only [widestIndent_writeLines printable notEmpty shown, Except.map]
      have reached : max (max (parent + 2) (parent + 1)) 1 = parent + 2 := by omega
      refine bind_eq_ok.2 ⟨_, rfl, ?_⟩
      simp only [Option.map_some, Option.getD_some, reached]
      exact read

end Headings

end DesignTokens.Yaml
