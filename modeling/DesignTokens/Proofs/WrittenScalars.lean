import DesignTokens.Proofs.Sequencing
import DesignTokens.Yaml.Block
import DesignTokens.Yaml.Scalar
import Mathlib.Algebra.GroupWithZero.Nat
import Mathlib.Data.List.DropRight

/-!
Scalars read back. Whatever notation a text is written in, the reader of that notation gives the
text again and goes on where the writer stopped, at the end of the last line or with the next one.
-/
namespace DesignTokens.Yaml

section Characters

/-- No line break and no white space stands in front, and nothing that would be passed over. -/
def StartsToken (cs : List Char) : Prop :=
  ∀ c ∈ cs.head?, isGap c = false ∧ c ≠ '#' ∧ c ≠ orderMark

variable {c : Char} {cs rest : List Char}

theorem startsToken_cons :
    StartsToken (c :: rest) ↔ isGap c = false ∧ c ≠ '#' ∧ c ≠ orderMark := by
  simp [StartsToken]

theorem isBreak_eq_false_of_isGap (h : isGap c = false) : isBreak c = false :=
  (Bool.or_eq_false_iff.1 h).2

theorem isSpace_eq_false_of_isGap (h : isGap c = false) : isSpace c = false :=
  (Bool.or_eq_false_iff.1 h).1

theorem isGap_space : isGap ' ' = true := by decide

theorem isBreak_space : isBreak ' ' = false := by decide

theorem ne_of_isGap {d : Char} (h : isGap c = false) (gap : isGap d = true) : c ≠ d := by
  rintro rfl
  exact Bool.false_ne_true (h.symm.trans gap)

theorem eq_space_of_isGap (printable : isPrintable c) (gap : isGap c)
    (noBreak : isBreak c = false) : c = ' ' := by
  rw [isGap, noBreak, Bool.or_false, isSpace, Bool.or_eq_true, decide_eq_true_eq,
    decide_eq_true_eq] at gap
  rcases gap with gap | rfl
  · exact gap
  · exact absurd printable (by decide)

theorem mem_spaces {n : Nat} (h : c ∈ spaces n) : c = ' ' := List.eq_of_mem_replicate h

theorem length_spaces (n : Nat) : (spaces n).length = n := List.length_replicate

theorem spaces_succ (n : Nat) : spaces (n + 1) = ' ' :: spaces n := rfl

theorem hasAdjacent_cons {p q : Char → Bool} :
    hasAdjacent p q (c :: rest) = false ↔
      (p c = true → ∀ d ∈ rest.head?, q d = false) ∧ hasAdjacent p q rest = false := by
  cases rest with
  | nil => simp [hasAdjacent]
  | cons d more => cases here : p c <;> cases there : q d <;> simp [hasAdjacent, here, there]

theorem prepend_ok (front text rest : List Char) :
    prepend front (.ok (text, rest)) = .ok (front ++ text, rest) := rfl

/-- White space without a line break stands for itself. -/
theorem foldGap_of_spaces {gap : List Char} (h : ∀ c ∈ gap, isBreak c = false) :
    foldGap gap = gap := by
  rw [foldGap, List.filter_eq_nil_iff.2 fun c hc => by simp [h c hc]]

theorem any_isBreak_eq_false {gap : List Char} (h : ∀ c ∈ gap, c = ' ') :
    gap.any isBreak = false := by
  rw [List.any_eq_false]
  intro c hc
  rw [h c hc, isBreak_space]
  exact Bool.false_ne_true

theorem endsLine_of_spaces {gap : List Char} (h : ∀ c ∈ gap, c = ' ') : endsLine gap = false := by
  rw [endsLine, any_isBreak_eq_false h, Bool.false_and]

theorem lastColumn_append_spaces (gap : List Char) (n : Nat) :
    n ≤ lastColumn (gap ++ spaces n) := by
  have inside : ∀ c ∈ spaces n, (!isBreak c) = true := fun c hc => by
    rw [mem_spaces hc, isBreak_space, Bool.not_false]
  have reversed : (spaces n).reverse = spaces n := List.reverse_replicate
  rw [lastColumn, List.reverse_append, reversed, List.takeWhile_append_of_pos inside,
    List.length_append, length_spaces]
  exact Nat.le_add_right n _

theorem lastColumn_break_spaces {b : Char} (h : isBreak b) (n : Nat) :
    lastColumn (b :: spaces n) = n := by
  have inside : ∀ c ∈ spaces n, (!isBreak c) = true := fun c hc => by
    rw [mem_spaces hc, isBreak_space, Bool.not_false]
  have reversed : (spaces n).reverse = spaces n := List.reverse_replicate
  rw [lastColumn, List.reverse_cons, reversed, List.takeWhile_append_of_pos inside,
    List.takeWhile_cons_of_neg (by simp [h]), List.append_nil, length_spaces]

end Characters

section SingleQuotes

/-- What is put in front of a character if a line break precedes it. -/
def indentation (indent : Nat) (newLine : Bool) : List Char := if newLine then spaces indent else []

/-- What a quoted text may have before `cs` and behind its last character that is no white space:
spaces, which no break follows, or behind a break further ones, which no space follows. -/
structure Pending (newLine : Bool) (gap cs : List Char) : Prop where
  spaces : newLine = false → ∀ c ∈ gap, c = ' '
  noBreak : newLine = false → gap ≠ [] → ∀ c ∈ cs.head?, isBreak c = false
  breaks : newLine = true → ∀ c ∈ gap, isBreak c = true ∧ c ≠ '\n'
  noSpace : newLine = true → gap ≠ [] ∧ ∀ c ∈ cs.head?, c ≠ ' '

variable {indent : Nat} {newLine : Bool} {gap cs rest : List Char} {c : Char}

theorem pending_nil : Pending false [] cs where
  spaces _ _ h := (nomatch h)
  noBreak _ h := absurd rfl h
  breaks h := (nomatch h)
  noSpace h := (nomatch h)

/-- The indentation of a line is no part of the text. -/
theorem Pending.foldGap_indentation (h : Pending newLine gap cs) (indent : Nat) :
    foldGap (gap ++ indentation indent newLine) = gap := by
  cases newLine with
  | false =>
      rw [indentation, if_neg Bool.false_ne_true, List.append_nil]
      exact foldGap_of_spaces fun c hc => by rw [h.spaces rfl c hc, isBreak_space]
  | true =>
      have breaks := h.breaks rfl
      have kept : (gap ++ indentation indent true).filter isBreak = gap := by
        rw [List.filter_append, List.filter_eq_self.2 fun c hc => (breaks c hc).1, indentation,
          if_pos rfl, List.filter_eq_nil_iff.2 fun c hc => by simp [mem_spaces hc, isBreak_space],
          List.append_nil]
      rw [foldGap, kept]
      cases gap with
      | nil => exact absurd rfl (h.noSpace rfl).1
      | cons first more =>
          have other := (breaks first List.mem_cons_self).2
          split
          · rename_i none
            cases none
          · rename_i single
            exact absurd (List.cons.inj single).1 other
          · rename_i feed
            exact absurd (List.cons.inj feed).1 other
          · rfl

theorem Pending.endsLine_indentation (h : Pending newLine gap cs) (positive : 0 < indent) :
    endsLine (gap ++ indentation indent newLine) = false := by
  cases newLine with
  | false =>
      rw [indentation, if_neg Bool.false_ne_true, List.append_nil]
      exact endsLine_of_spaces (h.spaces rfl)
  | true =>
      have reached := lastColumn_append_spaces gap indent
      rw [endsLine, indentation, if_pos rfl, beq_false_of_ne (by omega), Bool.and_false]

theorem Pending.push (h : Pending newLine gap (c :: rest)) (printable : isPrintable c)
    (feed : c ≠ '\n') (gapChar : isGap c)
    (before : hasAdjacent isPlainSpace isBreak (c :: rest) = false)
    (behind : hasAdjacent isBreak isPlainSpace (c :: rest) = false) :
    Pending (isBreak c) (gap ++ [c]) rest := by
  have gapBreaks : gap ≠ [] → newLine = isBreak c := by
    intro notEmpty
    cases newLine with
    | false => exact (h.noBreak rfl notEmpty c rfl).symm
    | true =>
        cases breaks : isBreak c with
        | true => rfl
        | false =>
            exact absurd (eq_space_of_isGap printable gapChar breaks) ((h.noSpace rfl).2 c rfl)
  have inGap : ∀ {d}, d ∈ gap → newLine = isBreak c := fun hd => gapBreaks (List.ne_nil_of_mem hd)
  have after := (hasAdjacent_cons.1 before).1
  have ahead := (hasAdjacent_cons.1 behind).1
  cases breaks : isBreak c with
  | false =>
      obtain rfl := eq_space_of_isGap printable gapChar breaks
      refine ⟨fun _ d hd => ?_, fun _ _ => after rfl, fun no => (nomatch no),
        fun no => (nomatch no)⟩
      rcases List.mem_append.1 hd with hd | hd
      · exact h.spaces ((inGap hd).trans breaks) d hd
      · exact List.eq_of_mem_singleton hd
  | true =>
      refine ⟨fun no => (nomatch no), fun no => (nomatch no), fun _ d hd => ?_,
        fun _ => ⟨by simp, ?_⟩⟩
      · rcases List.mem_append.1 hd with hd | hd
        · exact h.breaks ((inGap hd).trans breaks) d hd
        · rw [List.eq_of_mem_singleton hd]
          exact ⟨breaks, feed⟩
      · rintro d hd rfl
        exact absurd (ahead breaks ' ' hd) (by decide)

theorem readSingleQuoted_gap (h : isGap c) :
    readSingleQuoted gap (c :: rest) = readSingleQuoted (gap ++ [c]) rest := by
  have quote : c ≠ '\x27' := (ne_of_isGap (by decide) h).symm
  rw [readSingleQuoted, if_pos h]
  · exact fun _ same _ => quote same
  · exact quote

theorem readSingleQuoted_char (noGap : isGap c = false) (quote : c ≠ '\x27')
    (inLine : endsLine gap = false) :
    readSingleQuoted gap (c :: rest) = prepend (foldGap gap ++ [c]) (readSingleQuoted [] rest) := by
  rw [readSingleQuoted, if_neg (by simp [noGap]), if_neg (by simp [inLine])]
  · exact fun _ same _ => quote same
  · exact quote

theorem readSingleQuoted_close (h : rest.head? ≠ some '\x27') :
    readSingleQuoted gap ('\x27' :: rest) = .ok (foldGap gap, rest) := by
  rw [readSingleQuoted]
  rintro more rfl
  exact h rfl

theorem readSingleQuoted_spaces (n : Nat) :
    readSingleQuoted gap (spaces n ++ rest) = readSingleQuoted (gap ++ spaces n) rest := by
  induction n generalizing gap with
  | zero => simp [spaces]
  | succ n ih =>
      rw [spaces_succ, List.cons_append, readSingleQuoted_gap isGap_space, ih, List.append_assoc]
      rfl

theorem writeSingleQuoted_gap (h : isGap c) (fits : newLine = true → isBreak c = true) :
    writeSingleQuoted indent newLine (c :: rest) =
      c :: writeSingleQuoted indent (isBreak c) rest := by
  rw [writeSingleQuoted]
  split
  · rename_i breaks
    rw [breaks]
  · rename_i inLine
    have quote : c ≠ '\x27' := (ne_of_isGap (by decide) h).symm
    have same : newLine = false := Bool.eq_false_iff.2 fun starts => inLine (fits starts)
    rw [same, if_neg Bool.false_ne_true, if_neg quote, Bool.eq_false_iff.2 inLine]
    rfl

theorem writeSingleQuoted_char (noGap : isGap c = false) :
    writeSingleQuoted indent newLine (c :: rest) = indentation indent newLine ++
      (if c = '\x27' then ['\x27', '\x27'] else [c]) ++ writeSingleQuoted indent false rest := by
  rw [writeSingleQuoted, if_neg (by rw [isBreak_eq_false_of_isGap noGap]; exact Bool.false_ne_true)]
  rfl

theorem readSingleQuoted_indentation :
    readSingleQuoted gap (indentation indent newLine ++ rest) =
      readSingleQuoted (gap ++ indentation indent newLine) rest := by
  cases newLine with
  | false => simp [indentation]
  | true => exact readSingleQuoted_spaces indent

theorem readSingleQuoted_write (positive : 0 < indent) (closed : rest.head? ≠ some '\x27')
    (printable : ∀ c ∈ cs, isPrintable c ∧ c ≠ '\n')
    (before : hasAdjacent isPlainSpace isBreak cs = false)
    (behind : hasAdjacent isBreak isPlainSpace cs = false) (pending : Pending newLine gap cs) :
    readSingleQuoted gap (writeSingleQuoted indent newLine cs ++ '\x27' :: rest) =
      .ok (gap ++ cs, rest) := by
  induction cs generalizing gap newLine with
  | nil =>
      have written : writeSingleQuoted indent newLine [] = indentation indent newLine := rfl
      rw [written, readSingleQuoted_indentation, readSingleQuoted_close closed,
        pending.foldGap_indentation, List.append_nil]
  | cons c cs ih =>
      obtain ⟨⟨shows, feed⟩, printable⟩ := List.forall_mem_cons.1 printable
      have later : ∀ newLine gap, Pending newLine gap cs →
          readSingleQuoted gap (writeSingleQuoted indent newLine cs ++ '\x27' :: rest) =
            .ok (gap ++ cs, rest) :=
        fun _ _ => ih printable (hasAdjacent_cons.1 before).2 (hasAdjacent_cons.1 behind).2
      cases gapChar : isGap c with
      | true =>
          have fits : newLine = true → isBreak c = true := by
            intro starts
            cases breaks : isBreak c with
            | true => rfl
            | false =>
                refine absurd (eq_space_of_isGap shows gapChar breaks) ?_
                exact (pending.noSpace starts).2 c rfl
          rw [writeSingleQuoted_gap gapChar fits, List.cons_append, readSingleQuoted_gap gapChar,
            later _ _ (pending.push shows feed gapChar before behind), List.append_assoc]
          rfl
      | false =>
          rw [writeSingleQuoted_char gapChar, List.append_assoc, List.append_assoc,
            readSingleQuoted_indentation]
          have joined : gap ++ [c] ++ ([] ++ cs) = gap ++ c :: cs := by simp
          by_cases quote : c = '\x27'
          · subst quote
            simp only [if_pos, List.cons_append, List.nil_append]
            rw [readSingleQuoted, pending.foldGap_indentation, later _ _ pending_nil, prepend_ok,
              joined]
          · rw [if_neg quote, List.cons_append, List.nil_append,
              readSingleQuoted_char gapChar quote (pending.endsLine_indentation positive),
              pending.foldGap_indentation, later _ _ pending_nil, prepend_ok, joined]

end SingleQuotes

section DoubleQuotes

variable {gap cs rest : List Char} {c : Char}

theorem hexValue?_upperDigit {n : Nat} (h : n < 16) :
    Text.hexValue? (Text.hexDigit n).toUpper = some n := by
  revert n
  decide

theorem charOfCode?_toNat (c : Char) : charOfCode? c.toNat = some c := by
  rw [charOfCode?, dif_pos (show c.toNat.isValidChar from c.valid)]
  rfl

/-- Digits add to what was read of a code before them. -/
theorem readDoubleQuoted_digits {more : Nat} (further : 0 < more) (length code value : Nat) :
    readDoubleQuoted (.code (length + more) value) (codeDigits length code ++ rest) =
      readDoubleQuoted (.code more (16 ^ length * value + code % 16 ^ length)) rest := by
  induction length generalizing code more rest with
  | zero => simp [codeDigits, Nat.mod_one]
  | succ length ih =>
      have split : 16 ^ (length + 1) = 16 * 16 ^ length := Nat.pow_succ'
      have parts : code % 16 ^ (length + 1) = code % 16 + 16 * (code / 16 % 16 ^ length) := by
        rw [split, Nat.mod_mul]
      have joined : 16 * (16 ^ length * value + code / 16 % 16 ^ length) + code % 16 =
          16 ^ (length + 1) * value + code % 16 ^ (length + 1) := by
        rw [parts, split, Nat.mul_assoc]
        omega
      rw [codeDigits, List.append_assoc, Nat.add_assoc, ih (Nat.add_pos_left Nat.one_pos more),
        List.singleton_append, readDoubleQuoted, hexValue?_upperDigit (Nat.mod_lt code (by decide))]
      simp only []
      rw [if_pos (by omega), joined, Nat.add_sub_cancel_left]

theorem readDoubleQuoted_code {length : Nat} (fits : c.toNat < 16 ^ (length + 1)) :
    readDoubleQuoted (.code (length + 1) 0) (codeDigits (length + 1) c.toNat ++ rest) =
      prepend [c] (readDoubleQuoted (.text false []) rest) := by
  have whole : 16 * (c.toNat / 16) + c.toNat % 16 = c.toNat := Nat.div_add_mod _ _
  have front : c.toNat / 16 < 16 ^ length := by
    rw [Nat.pow_succ] at fits
    exact Nat.div_lt_of_lt_mul (by omega)
  rw [codeDigits, List.append_assoc, readDoubleQuoted_digits Nat.one_pos, Nat.mul_zero,
    Nat.zero_add, Nat.mod_eq_of_lt front, List.singleton_append, readDoubleQuoted,
    hexValue?_upperDigit (Nat.mod_lt _ (by decide))]
  simp only []
  rw [if_neg (by decide), whole, charOfCode?_toNat]

theorem readDoubleQuoted_escapeOf (c : Char) (rest : List Char) :
    readDoubleQuoted .escape (escapeOf c ++ rest) =
      prepend [c] (readDoubleQuoted (.text false []) rest) := by
  unfold escapeOf
  simp only []
  split
  case h_16 =>
    split
    · exact readDoubleQuoted_code (show c.toNat < 16 ^ (1 + 1) by omega)
    split
    · exact readDoubleQuoted_code (show c.toNat < 16 ^ (3 + 1) by omega)
    · have small : c.toNat < 0xd800 ∨ 0xdfff < c.toNat ∧ c.toNat < 0x110000 := c.valid
      exact readDoubleQuoted_code (show c.toNat < 16 ^ (7 + 1) by omega)
  all_goals
    rename_i code
    have same := congrArg Char.ofNat code
    rw [Char.ofNat_toNat] at same
    subst same
    rfl

theorem readDoubleQuoted_write (inLine : ∀ c ∈ gap, c = ' ') :
    readDoubleQuoted (.text false gap) (writeDoubleQuoted cs ++ '"' :: rest) =
      .ok (gap ++ cs, rest) := by
  have folded : ∀ {gap : List Char}, (∀ c ∈ gap, c = ' ') → joinGap false gap = gap := by
    intro gap inLine
    rw [joinGap, if_neg Bool.false_ne_true]
    exact foldGap_of_spaces fun c hc => by rw [inLine c hc, isBreak_space]
  induction cs generalizing gap with
  | nil =>
      change readDoubleQuoted _ ('"' :: rest) = _
      rw [readDoubleQuoted, if_neg (by decide), if_pos rfl, folded inLine, List.append_nil]
  | cons c cs ih =>
      have none : ∀ c ∈ [], c = ' ' := List.forall_mem_nil _
      have joined : gap ++ [c] ++ ([] ++ cs) = gap ++ c :: cs := by simp
      rw [writeDoubleQuoted]
      split
      · -- the character stands behind a backslash
        rw [List.cons_append, List.cons_append, List.append_assoc, readDoubleQuoted,
          if_neg (by decide), if_neg (by decide), endsLine_of_spaces inLine]
        simp only [Bool.false_or, Bool.false_and, Bool.false_eq_true, if_false, if_true]
        rw [readDoubleQuoted_escapeOf, ih none, prepend_ok, prepend_ok, folded inLine,
          ← List.append_assoc, joined]
      · rename_i plain
        simp only [Bool.or_eq_true, Bool.not_eq_true', decide_eq_true_eq, not_or, Bool.not_eq_false,
          Bool.not_eq_true] at plain
        obtain ⟨⟨⟨printable, noBreak⟩, quote⟩, backslash⟩ := plain
        rw [List.append_assoc, List.singleton_append, readDoubleQuoted]
        split
        · rename_i gapChar
          obtain rfl := eq_space_of_isGap printable gapChar noBreak
          rw [ih, List.append_assoc, List.singleton_append]
          exact fun d hd => (List.mem_append.1 hd).elim (inLine d) List.eq_of_mem_singleton
        · rw [endsLine_of_spaces inLine]
          simp only [Bool.false_or, Bool.false_and, Bool.false_eq_true, if_false]
          rw [ih none, prepend_ok, folded inLine, joined]

end DoubleQuotes

section Plain

/-- What follows a text that was written: a line indented by `column`, or the end. -/
structure Resumes (column : Nat) (next rest : List Char) : Prop where
  indented : next = spaces column ++ rest
  starts : StartsToken rest

variable {indent column : Nat} {gap cs next rest : List Char} {c : Char}

theorem readPlain_spaces {flow : Bool} (n : Nat) :
    readPlain flow indent gap (spaces n ++ rest) =
      readPlain flow indent (gap ++ spaces n) rest := by
  induction n generalizing gap with
  | zero => simp [spaces]
  | succ n ih =>
      rw [spaces_succ, List.cons_append, readPlain, if_pos isGap_space]
      simp only [Char.reduceEq, decide_false, Bool.false_and, Bool.false_eq_true, if_false]
      rw [ih, List.append_assoc]
      rfl

/-- A line that is indented less does not go on with a plain text. -/
theorem readPlain_resumes (less : column < indent) (h : Resumes column next rest) :
    readPlain false indent [] ('\n' :: next) = .ok (⟨[], true⟩, rest) := by
  obtain ⟨rfl, starts⟩ := h
  have broken : ('\n' :: spaces column).any isBreak = true := rfl
  rw [readPlain, if_pos (by decide)]
  simp only [Char.reduceEq, decide_false, Bool.false_and, Bool.false_eq_true, if_false]
  rw [readPlain_spaces, List.nil_append, List.singleton_append]
  cases rest with
  | nil => rw [readPlain, broken]
  | cons c rest =>
      obtain ⟨noGap, -⟩ := startsToken_cons.1 starts
      rw [readPlain, broken, lastColumn_break_spaces (by decide), noGap,
        decide_eq_false (Nat.not_le.2 less)]
      rfl

theorem readPlain_write (less : column < indent) (h : Resumes column next rest)
    (printable : ∀ c ∈ cs, isPrintable c ∧ isBreak c = false) (inLine : ∀ c ∈ gap, c = ' ')
    (ends : ∀ c ∈ (gap ++ cs).getLast?, c ≠ ' ') (whole : breaksOff (!gap.isEmpty) cs = false) :
    readPlain false indent gap (cs ++ '\n' :: next) = .ok (⟨gap ++ cs, true⟩, rest) := by
  induction cs generalizing gap with
  | nil =>
      obtain rfl : gap = [] := by
        cases last : gap.getLast? with
        | none => exact List.getLast?_eq_none_iff.1 last
        | some c =>
            refine absurd (inLine c (List.mem_of_getLast? last)) (ends c ?_)
            rw [List.append_nil, last]
            rfl
      exact readPlain_resumes less h
  | cons c cs ih =>
      obtain ⟨⟨shows, noBreak⟩, others⟩ := List.forall_mem_cons.1 printable
      rw [breaksOff, Bool.or_eq_false_iff, Bool.or_eq_false_iff] at whole
      obtain ⟨⟨comment, colon⟩, whole⟩ := whole
      have sameEnd : (gap ++ c :: cs).getLast? = (gap ++ [c] ++ cs).getLast? := by simp
      rw [List.cons_append, readPlain, any_isBreak_eq_false inLine, endsLine_of_spaces inLine]
      cases gapChar : isGap c with
      | true =>
          obtain rfl := eq_space_of_isGap shows gapChar noBreak
          simp only [if_true, Char.reduceEq, decide_false, Bool.false_and, Bool.false_eq_true,
            if_false]
          have spaced : ∀ d ∈ gap ++ [' '], d = ' ' :=
            fun d hd => (List.mem_append.1 hd).elim (inLine d) List.eq_of_mem_singleton
          have behind : (!(gap ++ [' ']).isEmpty) = true := by simp
          rw [ih others spaced (sameEnd ▸ ends) (by rwa [behind, ← isGap_space]), List.append_assoc]
          rfl
      | false =>
          have notLast : ∀ d ∈ ([] ++ cs).getLast?, d ≠ ' ' := by
            intro d hd
            refine ends d ?_
            rw [List.nil_append] at hd
            rw [sameEnd, List.getLast?_append, hd]
            rfl
          have closes : endsPlain false c (cs ++ '\n' :: next) = false := by
            have feed : isGap '\n' = true := by decide
            cases cs <;> simpa [endsPlain, startsGap, feed] using colon
          have folded : foldGap gap = gap :=
            foldGap_of_spaces fun d hd => by rw [inLine d hd, isBreak_space]
          rw [closes, comment]
          simp only [Bool.not_false, Bool.true_or, Bool.not_true, Bool.and_false, Bool.false_and,
            Bool.or_false, Bool.false_eq_true, if_false]
          rw [ih others (List.forall_mem_nil _) notLast (by rwa [gapChar] at whole)]
          simp only [Except.map, folded, List.nil_append]

end Plain

end DesignTokens.Yaml
