import DesignTokens.Proofs.ScanSteps

/-!
Scanning a scalar that was written. Whatever its notation, the scanner takes it for one token and
goes on with the line behind it, where a key may come and what begins further right is closed.
-/
namespace DesignTokens.Yaml

section Shapes

variable {indent column k : Nat} {newLine : Bool} {cs front : List Char} {b : Char}

theorem columnAfter_line (h : isBreak b = true) (front : List Char) :
    columnAfter column (front ++ b :: spaces k) = k := by
  rw [columnAfter_append, columnAfter, if_pos h,
    columnAfter_of_not_break fun c hc => by rw [mem_spaces hc, isBreak_space], length_spaces,
    Nat.zero_add]

/-- The lines of a block are ended. -/
theorem writeLines_ended (h : newLine = false ∨ cs ≠ []) :
    ∃ front b, writeLines indent newLine cs = front ++ [b] ∧ isBreak b = true := by
  induction cs generalizing newLine with
  | nil =>
      obtain rfl : newLine = false := h.resolve_right (fun none => none rfl)
      exact ⟨[], '\n', rfl, by decide⟩
  | cons c cs ih =>
      cases broken : isBreak c with
      | true =>
          rw [writeLines_break broken]
          cases cs with
          | nil => exact ⟨[], c, rfl, broken⟩
          | cons d cs =>
              obtain ⟨front, b, same, h⟩ := @ih true (Or.inr (List.cons_ne_nil d cs))
              exact ⟨c :: front, b, congrArg _ same, h⟩
      | false =>
          obtain ⟨front, b, same, h⟩ := @ih false (Or.inl rfl)
          refine ⟨indentation indent newLine ++ c :: front, b, ?_, h⟩
          rw [writeLines_char broken, same, List.append_assoc, List.cons_append]

/-- What holds of a text that is written in each of the notations. -/
inductive Fits (cs : List Char) : Form → Prop
  | plain (notEmpty : cs ≠ []) (fits : fitsPlain cs = true) : Fits cs .plain
  | singleQuoted (line : '\n' ∉ cs) (fits : fitsSingleQuotes cs = true) : Fits cs .singleQuoted
  | doubleQuoted : Fits cs .doubleQuoted
  | literal (notEmpty : cs ≠ []) (fits : fitsBlock cs = true) : Fits cs .literal

theorem fits_formOf (cs : List Char) : Fits cs (formOf cs) := by
  unfold formOf
  split
  · rename_i lines
    split
    · rename_i fits
      refine .literal ?_ fits
      rintro rfl
      cases lines
    · exact .doubleQuoted
  rename_i line
  split
  · rename_i fits
    obtain ⟨clear, fits⟩ := Bool.and_eq_true_iff.1 fits
    refine .plain ?_ fits
    rintro rfl
    exact absurd clear (by decide)
  split
  · rename_i fits
    exact .singleQuoted (by simpa using line) fits
  · exact .doubleQuoted

end Shapes

section Printable

/-- A text without a character that needs to be escaped. -/
def Printable (cs : List Char) : Prop := ∀ c ∈ cs, isPrintable c = true

instance (cs : List Char) : Decidable (Printable cs) :=
  decidable_of_iff (cs.all isPrintable = true) List.all_eq_true

variable {indent : Nat} {newLine : Bool} {c : Char} {cs front rest : List Char}

theorem printable_cons : Printable (c :: cs) ↔ isPrintable c = true ∧ Printable cs :=
  List.forall_mem_cons

theorem printable_append : Printable (front ++ rest) ↔ Printable front ∧ Printable rest :=
  List.forall_mem_append

theorem printable_flatMap {α : Type} {xs : List α} {f : α → List Char} :
    Printable (xs.flatMap f) ↔ ∀ x ∈ xs, Printable (f x) :=
  List.forall_mem_flatMap

theorem printable_of_all (h : cs.all isPrintable = true) : Printable cs := List.all_eq_true.1 h

theorem printable_indentation : Printable (indentation indent newLine) := by
  intro c hc
  cases newLine with
  | false => cases hc
  | true =>
      rw [mem_spaces hc]
      decide

theorem printable_writeSingleQuoted (h : Printable cs) :
    Printable (writeSingleQuoted indent newLine cs) := by
  induction cs generalizing newLine with
  | nil => exact printable_indentation
  | cons c cs ih =>
      obtain ⟨here, h⟩ := printable_cons.1 h
      rw [writeSingleQuoted]
      split
      · exact printable_cons.2 ⟨here, ih h⟩
      · refine printable_append.2 ⟨printable_append.2 ⟨printable_indentation, ?_⟩, ih h⟩
        split
        · decide
        · exact List.forall_mem_singleton.2 here

theorem printable_writeLines (h : Printable cs) : Printable (writeLines indent newLine cs) := by
  induction cs generalizing newLine with
  | nil =>
      cases newLine with
      | false => exact List.forall_mem_singleton.2 (by decide)
      | true => exact List.forall_mem_nil _
  | cons c cs ih =>
      obtain ⟨here, h⟩ := printable_cons.1 h
      rw [writeLines]
      split
      · exact printable_cons.2 ⟨here, ih h⟩
      · exact printable_append.2 ⟨printable_indentation, printable_cons.2 ⟨here, ih h⟩⟩

theorem printable_codeDigits (length code : Nat) : Printable (codeDigits length code) := by
  induction length generalizing code with
  | zero => exact List.forall_mem_nil _
  | succ length ih =>
      have digits : ∀ n < 16, isPrintable (Text.hexDigit n).toUpper = true := by decide
      exact printable_append.2
        ⟨ih _, List.forall_mem_singleton.2 (digits _ (Nat.mod_lt code (by decide)))⟩

theorem printable_escapeOf (c : Char) : Printable (escapeOf c) := by
  unfold escapeOf
  simp only []
  split
  case h_16 =>
    split
    · exact printable_cons.2 ⟨by decide, printable_codeDigits _ _⟩
    split
    · exact printable_cons.2 ⟨by decide, printable_codeDigits _ _⟩
    · exact printable_cons.2 ⟨by decide, printable_codeDigits _ _⟩
  all_goals decide

theorem printable_writeDoubleQuoted (cs : List Char) : Printable (writeDoubleQuoted cs) := by
  induction cs with
  | nil => exact List.forall_mem_nil _
  | cons c cs ih =>
      refine printable_append.2 ⟨?_, ih⟩
      split
      · exact printable_cons.2 ⟨by decide, printable_escapeOf c⟩
      · rename_i plain
        simp only [Bool.or_eq_true, Bool.not_eq_true', not_or, Bool.not_eq_false] at plain
        exact List.forall_mem_singleton.2 plain.1.1.1

theorem printable_literalMarks (cs : List Char) : Printable (literalMarks cs) := by
  rw [literalMarks_eq]
  split <;> cases chompOf cs <;> decide

/-- Whatever the text is, what is written for it needs no escaping. -/
theorem printable_writeScalar (indent : Nat) (cs : List Char) :
    Printable (writeScalar indent cs) := by
  rw [writeScalar]
  have fits := fits_formOf cs
  generalize formOf cs = form at fits ⊢
  cases fits with
  | plain _ fits =>
      simp only [fitsPlain, Bool.and_eq_true] at fits
      exact printable_append.2 ⟨printable_of_all fits.1.1.1.1.1, by decide⟩
  | singleQuoted _ fits =>
      simp only [fitsSingleQuotes, Bool.and_eq_true] at fits
      exact printable_cons.2 ⟨by decide, printable_append.2
        ⟨printable_writeSingleQuoted (printable_of_all fits.1.1), by decide⟩⟩
  | doubleQuoted =>
      exact printable_cons.2 ⟨by decide, printable_append.2
        ⟨printable_writeDoubleQuoted cs, by decide⟩⟩
  | literal _ fits =>
      simp only [fitsBlock, Bool.and_eq_true] at fits
      exact printable_cons.2 ⟨by decide, printable_append.2
        ⟨printable_literalMarks cs, printable_cons.2
          ⟨by decide, printable_writeLines (printable_of_all fits.1.1)⟩⟩⟩

theorem unifyBreaks_eq_self (h : ∀ c ∈ cs, c ≠ '\r' ∧ c ≠ '\u0085') : unifyBreaks cs = cs := by
  induction cs with
  | nil => rfl
  | cons c cs ih =>
      obtain ⟨⟨noReturn, noNext⟩, h⟩ := List.forall_mem_cons.1 h
      rw [unifyBreaks, ih h, if_neg (by simp [noReturn, noNext])]
      rintro _ rfl
      exact absurd rfl noReturn

theorem prepare_of_printable (h : Printable cs) : prepare cs = .ok cs := by
  have allowed : ∀ c ∈ cs, isAllowed c = true := by
    intro c hc
    have shows := h c hc
    simp only [isPrintable, isAllowed, Bool.or_eq_true, Bool.and_eq_true, beq_iff_eq,
      decide_eq_true_eq, bne_iff_ne] at shows ⊢
    omega
  have none : cs.find? (!isAllowed ·) = none := by
    rw [List.find?_eq_none]
    intro c hc
    simp [allowed c hc]
  rw [prepare, none]
  refine congrArg Except.ok (unifyBreaks_eq_self fun c hc => ⟨?_, ?_⟩)
  · rintro rfl
    exact absurd (h _ hc) (by decide)
  · rintro rfl
    exact absurd (h _ hc) (by decide)

end Printable

namespace Scan

section Scalars

variable {s t u : Scan} {rest next cs : List Char} {column column' parent : Nat}
  {columns : List Nat} {tokens : List Token} {allowed : Bool}

/-- A key that may have begun here is not to be expected. -/
theorem saveKey_stands (h : s.Stands rest column (parent :: columns) tokens allowed)
    (inner : parent < column) :
    ∃ key, s.saveKey = .ok { s with key := key } ∧
      ∀ k ∈ key, k.required = false ∧ k.line = s.cursor.line := by
  cases allowed with
  | false =>
      refine ⟨s.key, saveKey_of_not_allowed h.allowed, fun k here => ?_⟩
      rw [h.key] at here
      cases here
  | true =>
      refine ⟨_, saveKey_of_allowed h.allowed h.key, fun k here => ?_⟩
      obtain rfl := Option.some.inj here
      refine ⟨?_, rfl⟩
      have other : ¬ some parent = some column := fun same =>
        Nat.ne_of_lt inner (Option.some.inj same)
      rw [h.columns, h.column, List.head?_cons, decide_eq_false other, Bool.and_false]

/-- Behind a text that has ended its line the scan stands in front of the next one. -/
theorem Took.settle {front gaps body text : List Char} {b : Char} {key : Option PossibleKey}
    {plain ended : Bool} (h : s.Stands (front ++ (gaps ++ rest)) column columns tokens allowed)
    (took : s.Took (gaps ++ rest) key plain ended text t)
    (missed : ∀ k ∈ key, k.required = false ∧ k.line = s.cursor.line)
    (line : front ++ gaps = body ++ b :: spaces column') (broken : isBreak b = true)
    (blank : ∀ c ∈ gaps, c = ' ' ∨ isBreak c = true) (starts : StartsToken rest)
    (fresh : (ended || gaps.any isBreak) = true) :
    ∃ u, t.settle = .ok u ∧ u.Stands rest column' (leftOpen column' columns)
      (closing column' columns ++ .scalar plain text :: tokens) true := by
  have passed := passed_skipTo h.rest
  rw [← took.cursor] at passed
  have reached := passed_skipTo passed.rest
  have whole : (front ++ gaps).countP isBreak = front.countP isBreak + gaps.countP isBreak :=
    List.countP_append
  have later : s.cursor.line < (t.cursor.skipTo rest).line := by
    have breaks : 0 < (front ++ gaps).countP isBreak := by
      rw [List.countP_pos_iff, line]
      exact ⟨b, by simp, broken⟩
    rw [reached.line, passed.line]
    omega
  have expired : expireKey (t.cursor.skipTo rest) t.key = .ok none := by
    rw [took.key]
    cases key with
    | none => rfl
    | some k =>
        obtain ⟨optional, begun⟩ := missed k rfl
        rw [expireKey, PossibleKey.isOver, begun, decide_eq_true later, Bool.true_or, if_pos rfl,
          optional, if_neg Bool.false_ne_true]
  obtain ⟨u, settled, place, key, flat, may, left, behind⟩ :=
    settle_eq_ok passed.rest starts blank took.flat expired
  have there : u.cursor.column = column' := by
    rw [place, reached.column, passed.column, ← columnAfter_append, line, columnAfter_line broken]
  refine ⟨u, settled, ?_, there, ?_, ?_, ?_, key, flat⟩
  · rw [place, reached.rest]
  · rw [left, there, took.columns, h.columns]
  · rw [behind, there, took.columns, h.columns, took.tokens, h.tokens]
  · rw [may, took.allowed, fresh]

theorem indicators : ∀ c ∈ "-?:,[]\x7b\x7d#&*!|>\x27\"%@\x60".toList,
    (c = '-' ∨ c = '?' ∨ c = ':') ∨ c ∈ "#,[]\x7b\x7d&*!|>\x27\"%@\x60".toList := by
  simp

/-- A text that may be left plain is taken for a plain one. -/
theorem opensPlain_of_fits {c : Char} (h : fitsPlain (c :: cs) = true) (next : List Char) :
    OpensPlain c (cs ++ '\n' :: next) := by
  simp only [fitsPlain, Bool.and_eq_true, Bool.not_eq_true'] at h
  obtain ⟨⟨⟨⟨⟨printable, line⟩, space⟩, -⟩, reserved⟩, -⟩ := h
  have noBreak : isBreak c = false := by
    rw [List.any_cons, Bool.or_eq_false_iff] at line
    exact line.1
  have noGap : isGap c = false := by
    rw [← Bool.not_eq_true]
    intro gap
    have shows := List.all_eq_true.1 printable c List.mem_cons_self
    simp [eq_space_of_isGap shows gap noBreak, isPlainSpace] at space
  refine ⟨noGap, ?_⟩
  unfold startsReserved at reserved
  split at reserved
  · cases reserved
  · cases reserved
  · rename_i same
    obtain ⟨rfl, rfl⟩ := List.cons.inj same
    obtain ⟨other, gap⟩ := Bool.or_eq_false_iff.1 reserved
    cases indicator : isIndicator c with
    | false => exact Or.inl rfl
    | true =>
        rcases indicators c (List.contains_iff_mem.1 indicator) with leading | taken
        · have inWord : startsGap cs = false := by
            rcases leading with rfl | rfl | rfl <;> simpa using gap
          refine Or.inr ⟨leading, ?_⟩
          cases cs with
          | nil => cases inWord
          | cons => exact inWord
        · rw [List.contains_iff_mem.2 taken] at other
          cases other
  · rename_i none
    cases none

theorem Stands.inside (h : s.Stands rest column columns tokens allowed) (inner : parent < column) :
    s.cursor.column ≠ 0 := by
  rw [h.column]
  exact Nat.ne_of_gt (Nat.zero_lt_of_lt inner)

theorem token_singleQuoted (h : s.cursor.column ≠ 0) :
    s.token '\x27' rest = s.quoted (readSingleQuoted [] rest) := by
  simp [token, h]

theorem token_doubleQuoted (h : s.cursor.column ≠ 0) :
    s.token '"' rest = s.quoted (readDoubleQuoted (.text false []) rest) := by
  simp [token, h]

theorem token_literal (h : s.cursor.column ≠ 0) (flat : s.outerKeys = []) :
    s.token '|' rest = s.block false rest := by
  simp [token, h, inFlow, flat]

theorem quoted_eq_ok {key : Option PossibleKey} (saved : s.saveKey = .ok { s with key := key })
    (flat : s.outerKeys = []) (text : List Char) :
    ∃ t, s.quoted (.ok (text, rest)) = .ok t ∧ s.Took rest key false false text t :=
  ⟨_, bind_eq_ok.2 ⟨_, saved, rfl⟩, rfl, rfl, rfl, rfl, rfl, flat⟩

theorem block_eq_ok (key : s.key = none) (flat : s.outerKeys = []) {marked text : List Char}
    (read : readBlockText false s.columns.head? marked = .ok (text, rest)) :
    ∃ t, s.block false marked = .ok t ∧ s.Took rest none false true text t := by
  have dropped : s.dropKey = .ok { s with key := none } := by
    rw [dropKey, key]
    rfl
  exact ⟨_, bind_eq_ok.2 ⟨_, dropped, bind_eq_ok.2 ⟨_, read, rfl⟩⟩, rfl, rfl, rfl, rfl, rfl, flat⟩

/-- The token that a text becomes. -/
def scalarToken (cs : List Char) : Token := .scalar (formOf cs = .plain) cs

/-- What scanning one token does: the token is found, and the scan goes on to stand behind it. -/
def Finds (s : Scan) (rest : List Char) (column : Nat) (columns : List Nat) (tokens : List Token) :
    Prop :=
  ∃ c more t u, s.cursor.rest = c :: more ∧ s.token c more = .ok t ∧ t.settle = .ok u ∧
    u.Stands rest column columns tokens true

theorem finds_plain (h : s.Stands (cs ++ '\n' :: next) column (parent :: columns) tokens allowed)
    (inner : parent < column) (resumes : Resumes column' next rest) (less : column' ≤ parent)
    (notEmpty : cs ≠ []) (fits : fitsPlain cs = true) :
    s.Finds rest column' (leftOpen column' (parent :: columns))
      (closing column' (parent :: columns) ++ .scalar true cs :: tokens) := by
  obtain ⟨key, saved, missed⟩ := saveKey_stands h inner
  have opens := fits
  simp only [fitsPlain, Bool.and_eq_true, Bool.not_eq_true'] at fits
  obtain ⟨⟨⟨⟨⟨printable, line⟩, -⟩, last⟩, -⟩, whole⟩ := fits
  have read : readPlain false (parent + 1) [] (cs ++ '\n' :: next) = .ok (⟨cs, true⟩, rest) := by
    refine readPlain_write (Nat.lt_succ_of_le less) resumes ?_ (List.forall_mem_nil _) ?_ whole
    · exact fun c hc => ⟨List.all_eq_true.1 printable c hc,
        by simpa using List.any_eq_false.1 line c hc⟩
    · rintro c hc rfl
      rw [List.nil_append] at hc
      rw [hc] at last
      cases last
  have indented : (s.columns.head?.map (· + 1)).getD 0 = parent + 1 := by
    rw [h.columns]
    rfl
  rw [← h.rest, ← indented] at read
  obtain ⟨t, found, took⟩ := plain_eq_ok saved h.flat read
  obtain ⟨rfl, starts⟩ := resumes
  have parts : cs ++ '\n' :: (spaces column' ++ rest) =
      (cs ++ '\n' :: spaces column') ++ ([] ++ rest) := by simp
  obtain ⟨u, settled, stands⟩ := Took.settle (parts ▸ h) took missed (List.append_nil _) (by decide)
    (List.forall_mem_nil _) starts rfl
  cases cs with
  | nil => exact absurd rfl notEmpty
  | cons c cs =>
      have dispatched := token_of_plain h.flat (opensPlain_of_fits opens (spaces column' ++ rest))
        fun first => absurd first (h.inside inner)
      exact ⟨c, _, t, u, h.rest, dispatched.trans found, settled, stands⟩

/-- A text in quotes, which ends in front of the line break. -/
theorem finds_quoted {c : Char} {written : List Char} {read : Step (List Char)}
    (h : s.Stands (c :: (written ++ '\n' :: next)) column (parent :: columns) tokens allowed)
    (inner : parent < column) (resumes : Resumes column' next rest)
    (dispatched : s.token c (written ++ '\n' :: next) = s.quoted read)
    (done : read = .ok (cs, '\n' :: next)) :
    s.Finds rest column' (leftOpen column' (parent :: columns))
      (closing column' (parent :: columns) ++ .scalar false cs :: tokens) := by
  obtain ⟨key, saved, missed⟩ := saveKey_stands h inner
  obtain ⟨t, found, took⟩ := @quoted_eq_ok s ('\n' :: next) key saved h.flat cs
  obtain ⟨rfl, starts⟩ := resumes
  have blank : ∀ d ∈ '\n' :: spaces column', d = ' ' ∨ isBreak d = true :=
    List.forall_mem_cons.2 ⟨Or.inr (by decide), fun d hd => Or.inl (mem_spaces hd)⟩
  obtain ⟨u, settled, stands⟩ := @Took.settle s t rest column column' _ _ _ (c :: written)
    ('\n' :: spaces column') (c :: written) _ _ _ _ _ h took missed rfl (by decide) blank starts rfl
  rw [done] at dispatched
  exact ⟨c, _, t, u, h.rest, dispatched.trans found, settled, stands⟩

theorem finds_singleQuoted (h : s.Stands ('\x27' :: (writeSingleQuoted (parent + 2) false cs ++
      '\x27' :: '\n' :: next)) column (parent :: columns) tokens allowed)
    (inner : parent < column) (resumes : Resumes column' next rest) (line : '\n' ∉ cs)
    (fits : fitsSingleQuotes cs = true) :
    s.Finds rest column' (leftOpen column' (parent :: columns))
      (closing column' (parent :: columns) ++ .scalar false cs :: tokens) := by
  simp only [fitsSingleQuotes, Bool.and_eq_true, Bool.not_eq_true'] at fits
  obtain ⟨⟨printable, before⟩, behind⟩ := fits
  have read : readSingleQuoted []
      (writeSingleQuoted (parent + 2) false cs ++ '\x27' :: '\n' :: next) =
        .ok (cs, '\n' :: next) := by
    refine readSingleQuoted_write (Nat.succ_pos _) (by simp) (fun c hc => ?_) before behind
      pending_nil
    refine ⟨List.all_eq_true.1 printable c hc, ?_⟩
    rintro rfl
    exact line hc
  have quoted : writeSingleQuoted (parent + 2) false cs ++ '\x27' :: '\n' :: next =
      (writeSingleQuoted (parent + 2) false cs ++ ['\x27']) ++ '\n' :: next := by simp
  rw [quoted] at h read
  exact finds_quoted h inner resumes (token_singleQuoted (h.inside inner)) read

theorem finds_doubleQuoted
    (h : s.Stands ('"' :: (writeDoubleQuoted cs ++ '"' :: '\n' :: next)) column
      (parent :: columns) tokens allowed) (inner : parent < column)
    (resumes : Resumes column' next rest) :
    s.Finds rest column' (leftOpen column' (parent :: columns))
      (closing column' (parent :: columns) ++ .scalar false cs :: tokens) := by
  have read : readDoubleQuoted (.text false []) (writeDoubleQuoted cs ++ '"' :: '\n' :: next) =
      .ok (cs, '\n' :: next) := readDoubleQuoted_write (List.forall_mem_nil _)
  have quoted : writeDoubleQuoted cs ++ '"' :: '\n' :: next =
      (writeDoubleQuoted cs ++ ['"']) ++ '\n' :: next := by simp
  rw [quoted] at h read
  exact finds_quoted h inner resumes (token_doubleQuoted (h.inside inner)) read

theorem finds_literal (h : s.Stands ('|' :: (literalMarks cs ++ '\n' ::
      (writeLines (parent + 2) true cs ++ next))) column (parent :: columns) tokens allowed)
    (inner : parent < column) (resumes : Resumes column' next rest) (less : column' ≤ parent)
    (notEmpty : cs ≠ []) (fits : fitsBlock cs = true) :
    s.Finds rest column' (leftOpen column' (parent :: columns))
      (closing column' (parent :: columns) ++ .scalar false cs :: tokens) := by
  have printable : ∀ c ∈ cs, isPrintable c := by
    simp only [fitsBlock, Bool.and_eq_true] at fits
    exact List.all_eq_true.1 fits.1.1
  have read := readBlockText_write less resumes printable notEmpty
  have outer : s.columns.head? = .some parent := by
    rw [h.columns]
    rfl
  rw [← outer] at read
  obtain ⟨t, found, took⟩ := block_eq_ok h.key h.flat read
  obtain ⟨rfl, starts⟩ := resumes
  obtain ⟨front, b, ended, broken⟩ := @writeLines_ended (parent + 2) true cs (Or.inr notEmpty)
  have parts : '|' :: (literalMarks cs ++ '\n' :: (writeLines (parent + 2) true cs ++
      (spaces column' ++ rest))) =
      ('|' :: literalMarks cs ++ '\n' :: front ++ b :: spaces column') ++ ([] ++ rest) := by
    simp [ended]
  have missed : ∀ k ∈ (none : Option PossibleKey), k.required = false ∧ k.line = s.cursor.line :=
    fun _ here => (nomatch here)
  obtain ⟨u, settled, stands⟩ := Took.settle (parts ▸ h) took missed (List.append_nil _) broken
    (List.forall_mem_nil _) starts rfl
  exact ⟨'|', _, t, u, h.rest, (token_literal (h.inside inner) h.flat).trans found, settled, stands⟩

theorem finds_scalar (h : s.Stands (writeScalar (parent + 2) cs ++ next) column (parent :: columns)
      tokens allowed) (inner : parent < column) (resumes : Resumes column' next rest)
    (less : column' ≤ parent) :
    s.Finds rest column' (leftOpen column' (parent :: columns))
      (closing column' (parent :: columns) ++ scalarToken cs :: tokens) := by
  rw [writeScalar] at h
  rw [scalarToken]
  have fits := fits_formOf cs
  generalize formOf cs = form at h fits ⊢
  cases fits with
  | plain notEmpty fits =>
      exact finds_plain (by simpa using h) inner resumes less notEmpty fits
  | singleQuoted line fits =>
      exact finds_singleQuoted (by simpa using h) inner resumes line fits
  | doubleQuoted =>
      exact finds_doubleQuoted (by simpa using h) inner resumes
  | literal notEmpty fits =>
      exact finds_literal (by simpa using h) inner resumes less notEmpty fits

end Scalars

end Scan

end DesignTokens.Yaml
