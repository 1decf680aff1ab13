import DesignTokens.Proofs.BalancedText
import Mathlib.Data.List.Induction

/-!
What the check of delimiters finds fault with. A text is read as a sequence of marks, its delimiters
outside strings and comments and the ends of lines that stand in a string; the reading is given by a
grammar. The first mark that does not fit is reported, and if all fit, the last delimiter that is
never closed.
-/
namespace DesignTokens.Swift

/-! The reading of a text. -/

/-- What may stand between the quotes of a string: a quote only behind a backslash, which takes the
next character with it. -/
inductive StringBody : List Char → Prop
  | nil : StringBody []
  | escaped (c : Char) {rest : List Char} (behind : StringBody rest) :
      StringBody ('\\' :: c :: rest)
  | plain {c : Char} {rest : List Char} (quote : c ≠ '"') (backslash : c ≠ '\\')
      (behind : StringBody rest) : StringBody (c :: rest)

/-- The marks of the line with a number. -/
inductive LineMarks (line : Nat) : List Char → List Mark → Prop
  | nil : LineMarks line [] []
  | comment (rest : List Char) : LineMarks line ('/' :: '/' :: rest) []
  | string {body rest : List Char} {marks : List Mark} (inside : StringBody body)
      (behind : LineMarks line rest marks) : LineMarks line ('"' :: body ++ '"' :: rest) marks
  | unfinished {body : List Char} (inside : StringBody body) :
      LineMarks line ('"' :: body) [.unfinished line]
  | cutOff {body : List Char} (inside : StringBody body) :
      LineMarks line ('"' :: body ++ ['\\']) [.unfinished line]
  | delimiter {c : Char} {rest : List Char} {marks : List Mark} (known : isDelimiter c)
      (behind : LineMarks line rest marks) :
      LineMarks line (c :: rest) (.delimiter c line known :: marks)
  | other {c : Char} {rest : List Char} {marks : List Mark} (quote : c ≠ '"')
      (slashes : ¬ (c = '/' ∧ rest.head? = some '/')) (unknown : ¬ isDelimiter c)
      (behind : LineMarks line rest marks) : LineMarks line (c :: rest) marks

/-- The marks of all lines, numbered from the first on. -/
inductive TextMarks : Nat → List (List Char) → List Mark → Prop
  | nil {line : Nat} : TextMarks line [] []
  | cons {line : Nat} {text : List Char} {rest : List (List Char)} {marks others : List Mark}
      (first : LineMarks line text marks) (behind : TextMarks (line + 1) rest others) :
      TextMarks line (text :: rest) (marks ++ others)

theorem ne_of_isDelimiter {c : Char} (h : isDelimiter c) : c ≠ '"' ∧ c ≠ '/' := by
  constructor
  · rintro rfl
    exact absurd h (by decide)
  · rintro rfl
    exact absurd h (by decide)

theorem StringBody.append {a b : List Char} (ha : StringBody a) (hb : StringBody b) :
    StringBody (a ++ b) := by
  induction ha with
  | nil => exact hb
  | escaped c _ ih => exact .escaped c ih
  | plain quote backslash _ ih => exact .plain quote backslash ih

theorem StringBody.lineMarks {body : List Char} (h : StringBody body) (line : Nat)
    (rest : List Char) : lineMarks line .string (body ++ rest) = lineMarks line .string rest := by
  induction h with
  | nil => rfl
  | escaped c _ ih => exact ih
  | plain quote backslash _ ih =>
      rw [List.cons_append, Swift.lineMarks, if_neg backslash, if_neg quote, ih]

theorem lineMarks_quote (line : Nat) (rest : List Char) :
    lineMarks line .code ('"' :: rest) = lineMarks line .string rest := rfl

theorem lineMarks_of_reading {line : Nat} {cs : List Char} {marks : List Mark}
    (h : LineMarks line cs marks) : lineMarks line .code cs = marks := by
  induction h with
  | nil => rfl
  | comment => rfl
  | string inside _ ih =>
      rw [List.cons_append, lineMarks_quote, inside.lineMarks]
      exact ih
  | @unfinished body inside =>
      have whole := inside.lineMarks line []
      rw [List.append_nil] at whole
      exact whole
  | @cutOff body inside => exact inside.lineMarks line ['\\']
  | delimiter known _ ih =>
      obtain ⟨quote, slash⟩ := ne_of_isDelimiter known
      rw [lineMarks, if_neg quote, if_neg (by simp [slash]), dif_pos known, ih]
  | other quote slashes unknown _ ih =>
      rw [lineMarks, if_neg quote, if_neg (by simpa using slashes), dif_neg unknown, ih]

/-- What is left of a line goes on in code, in a string or behind a backslash in one. -/
theorem reading_lineMarks (line : Nat) (place : Within) (cs : List Char) :
    match place with
    | .code => LineMarks line cs (lineMarks line place cs)
    | .string => ∀ body, StringBody body →
        LineMarks line ('"' :: body ++ cs) (lineMarks line place cs)
    | .escape => ∀ body, StringBody body →
        LineMarks line ('"' :: body ++ '\\' :: cs) (lineMarks line place cs) := by
  fun_induction lineMarks line place cs with
  | case1 => exact .nil
  | case2 =>
      intro body inside
      rw [List.append_nil]
      exact .unfinished inside
  | case3 => exact fun body inside => .cutOff inside
  | case4 c rest ih =>
      intro body inside
      have longer := ih (body ++ ['\\', c]) (inside.append (.escaped c .nil))
      rwa [← List.cons_append, List.append_assoc] at longer
  | case5 c rest ih =>
      intro body inside
      by_cases backslash : c = '\\'
      · rw [if_pos backslash] at ih ⊢
        rw [backslash]
        exact ih body inside
      · by_cases quote : c = '"'
        · rw [if_neg backslash, if_pos quote] at ih ⊢
          rw [quote]
          exact .string inside ih
        · rw [if_neg backslash, if_neg quote] at ih ⊢
          have longer := ih (body ++ [c]) (inside.append (.plain quote backslash .nil))
          rwa [← List.cons_append, List.append_assoc] at longer
  | case6 rest ih => exact ih [] .nil
  | case7 c rest quote slashes =>
      simp only [Bool.and_eq_true, decide_eq_true_eq] at slashes
      obtain ⟨rfl, next⟩ := slashes
      obtain ⟨others, rfl⟩ := List.head?_eq_some_iff.1 next
      exact .comment others
  | case8 c rest quote slashes known ih => exact .delimiter known ih
  | case9 c rest quote slashes unknown ih => exact .other quote (by simpa using slashes) unknown ih

theorem lineMarks_iff {line : Nat} {cs : List Char} {marks : List Mark} :
    LineMarks line cs marks ↔ marks = lineMarks line .code cs := by
  constructor
  · intro h
    exact (lineMarks_of_reading h).symm
  · rintro rfl
    exact reading_lineMarks line .code cs

theorem textMarks_iff {line : Nat} {texts : List (List Char)} {marks : List Mark} :
    TextMarks line texts marks ↔ marks = textMarks line texts := by
  constructor
  · intro h
    induction h with
    | nil => rfl
    | cons first _ ih => rw [textMarks, ← lineMarks_iff.1 first, ← ih]
  · rintro rfl
    induction texts generalizing line with
    | nil => exact .nil
    | cons text rest ih => exact .cons (lineMarks_iff.2 rfl) ih

/-! Dyck words of marks. -/

/-- Every opened delimiter is closed by its own closing one, in reverse order. -/
inductive AllClosed : List Mark → Prop
  | nil : AllClosed []
  | enclose {o c : Char} {line line' : Nat} {inner rest : List Mark} (known : isDelimiter o)
      (known' : isDelimiter c) (fits : opener? c = some o) (inside : AllClosed inner)
      (behind : AllClosed rest) :
      AllClosed (.delimiter o line known :: inner ++ .delimiter c line' known' :: rest)

theorem AllClosed.append {a b : List Mark} (ha : AllClosed a) (hb : AllClosed b) :
    AllClosed (a ++ b) := by
  induction ha with
  | nil => exact hb
  | enclose known known' fits inside _ _ behind =>
      rw [List.append_assoc, List.cons_append]
      exact .enclose known known' fits inside behind

/-- Marks that leave some delimiters open, the last one first. -/
inductive LeavesOpen : List Mark → List Opened → Prop
  | nothing {marks : List Mark} (closed : AllClosed marks) : LeavesOpen marks []
  | opened {outer inner : List Mark} {o : Char} {line : Nat} {below : List Opened}
      (known : isDelimiter o) (outside : LeavesOpen outer below) (opens : isOpener o)
      (closed : AllClosed inner) :
      LeavesOpen (outer ++ .delimiter o line known :: inner) (⟨o, line⟩ :: below)

theorem LeavesOpen.append {marks block : List Mark} {opened : List Opened}
    (h : LeavesOpen marks opened) (closed : AllClosed block) :
    LeavesOpen (marks ++ block) opened := by
  cases h with
  | nothing h => exact .nothing (h.append closed)
  | opened known outside opens inside =>
      rw [List.append_assoc, List.cons_append]
      exact .opened known outside opens (inside.append closed)

theorem foldlM_of_allClosed {block : List Mark} (h : AllClosed block) (opened : List Opened) :
    block.foldlM meet opened = .ok opened := by
  induction h generalizing opened with
  | nil => rfl
  | @enclose o c line line' inner rest known known' fits _ _ inside behind =>
      rw [List.cons_append, List.foldlM_cons, meet_opener _ _ (isOpener_of_opener? fits).1]
      change (inner ++ _).foldlM meet _ = _
      rw [List.foldlM_append, inside]
      change (Mark.delimiter c line' known' :: rest).foldlM meet _ = _
      rw [List.foldlM_cons, meet_closer _ _ fits, close, if_pos rfl]
      exact behind opened

theorem foldlM_of_leavesOpen {marks : List Mark} {opened : List Opened}
    (h : LeavesOpen marks opened) : marks.foldlM meet [] = .ok opened := by
  induction h with
  | nothing closed => exact foldlM_of_allClosed closed []
  | @opened outer inner o line below known _ opens closed ih =>
      rw [List.foldlM_append, ih]
      change (Mark.delimiter o line known :: inner).foldlM meet _ = _
      rw [List.foldlM_cons, meet_opener _ _ opens]
      exact foldlM_of_allClosed closed _

/-! Faults. -/

/-- A mark that does not fit behind others: the end of a line within a string, or a closing
delimiter when none is open or when the one opened last is of another kind. -/
inductive Faulty (before : List Mark) : Mark → DelimiterFault → Prop
  | unfinished (line : Nat) : Faulty before (.unfinished line) .unterminatedString
  | unexpected {c : Char} {line : Nat} (known : isDelimiter c) (closes : (opener? c).isSome)
      (closed : AllClosed before) : Faulty before (.delimiter c line known) (.unexpected c)
  | mismatch {c o : Char} {line openedAt : Nat} {outer inner : List Mark} (known : isDelimiter c)
      (known' : isDelimiter o) (closes : (opener? c).isSome) (opens : isOpener o)
      (split : before = outer ++ .delimiter o openedAt known' :: inner) (closed : AllClosed inner)
      (other : opener? c ≠ some o) :
      Faulty before (.delimiter c line known) (.mismatch c o openedAt)

/-- Every mark fits behind those in front of it. -/
def Sound (marks : List Mark) : Prop :=
  ∀ before mark after fault, marks = before ++ mark :: after → ¬ Faulty before mark fault

/-- What is wrong with some marks, and on which line: the first mark that does not fit, or, if all
fit, the last delimiter that is not closed. -/
inductive Wrong (marks : List Mark) : Nat → DelimiterFault → Prop
  | first {before after : List Mark} {mark : Mark} {fault : DelimiterFault}
      (split : marks = before ++ mark :: after) (sound : Sound before)
      (faulty : Faulty before mark fault) : Wrong marks mark.line fault
  | neverClosed {outer inner : List Mark} {o : Char} {line : Nat} (sound : Sound marks)
      (known : isDelimiter o) (opens : isOpener o)
      (split : marks = outer ++ .delimiter o line known :: inner) (closed : AllClosed inner) :
      Wrong marks line (.neverClosed o)

/-- Behind marks that leave some delimiters open, a mark fits or is faulty. -/
theorem LeavesOpen.step {before : List Mark} {opened : List Opened} (h : LeavesOpen before opened)
    (mark : Mark) :
    (∃ opened', meet opened mark = .ok opened' ∧ LeavesOpen (before ++ [mark]) opened') ∨
      ∃ fault, meet opened mark = .error (.unbalanced mark.line fault) ∧
        Faulty before mark fault := by
  cases mark with
  | unfinished line => exact .inr ⟨_, rfl, .unfinished line⟩
  | delimiter c line known =>
      cases closes : opener? c with
      | none =>
          have opens := isOpener_of_isDelimiter known closes
          exact .inl ⟨_, meet_opener line known opens opened, .opened known h opens .nil⟩
      | some expected =>
          have closing : (opener? c).isSome := by rw [closes, Option.isSome_some]
          rw [meet_closer line known closes]
          cases h with
          | nothing closed => exact .inr ⟨_, rfl, .unexpected known closing closed⟩
          | @opened outer inner o openedAt below known' outside opens closed =>
              rw [close]
              by_cases same : o = expected
              · subst same
                rw [if_pos rfl]
                have block : AllClosed
                    (.delimiter o openedAt known' :: inner ++ [.delimiter c line known]) :=
                  .enclose known' known closes closed .nil
                have behind := outside.append block
                rw [← List.append_assoc] at behind
                exact .inl ⟨_, rfl, behind⟩
              · rw [if_neg same]
                refine .inr ⟨_, rfl, .mismatch known known' closing opens rfl closed ?_⟩
                rw [closes]
                exact fun h => same (Option.some.inj h).symm

/-- All marks fit, or some first one does not. -/
theorem leavesOpen_or_faulty (marks : List Mark) :
    (∃ opened, LeavesOpen marks opened) ∨
      ∃ before mark after fault opened, marks = before ++ mark :: after ∧
        LeavesOpen before opened ∧ Faulty before mark fault := by
  induction marks using List.reverseRecOn with
  | nil => exact .inl ⟨[], .nothing .nil⟩
  | append_singleton init mark ih =>
      rcases ih with ⟨opened, leaves⟩ | ⟨before, first, after, fault, opened, rfl, leaves, faulty⟩
      · rcases leaves.step mark with ⟨opened', -, goes⟩ | ⟨fault, -, faulty⟩
        · exact .inl ⟨opened', goes⟩
        · exact .inr ⟨init, mark, [], fault, opened, rfl, leaves, faulty⟩
      · exact .inr ⟨before, first, after ++ [mark], fault, opened, by simp, leaves, faulty⟩

/-- A delimiter with nothing open behind it is the one opened last. -/
theorem LeavesOpen.eq_cons {outer inner : List Mark} {o : Char} {line : Nat}
    {opened : List Opened} {known : isDelimiter o}
    (h : LeavesOpen (outer ++ .delimiter o line known :: inner) opened) (opens : isOpener o)
    (closed : AllClosed inner) : ∃ below, opened = ⟨o, line⟩ :: below := by
  have run := foldlM_of_leavesOpen h
  rw [List.foldlM_append] at run
  obtain ⟨below, -, run⟩ := bind_eq_ok.1 run
  rw [List.foldlM_cons, meet_opener line known opens] at run
  exact ⟨below, (Except.ok.inj ((foldlM_of_allClosed closed _).symm.trans run)).symm⟩

theorem LeavesOpen.meet_faulty {before : List Mark} {opened : List Opened}
    (h : LeavesOpen before opened) {mark : Mark} {fault : DelimiterFault}
    (faulty : Faulty before mark fault) :
    meet opened mark = .error (.unbalanced mark.line fault) := by
  cases faulty with
  | unfinished line => rfl
  | @unexpected c line known closes closed =>
      have none := (foldlM_of_leavesOpen h).symm.trans (foldlM_of_allClosed closed [])
      obtain rfl := Except.ok.inj none
      obtain ⟨expected, closes⟩ := Option.isSome_iff_exists.1 closes
      exact meet_closer line known closes []
  | @mismatch c o line openedAt outer inner known known' closes opens split closed other =>
      subst split
      obtain ⟨below, rfl⟩ := h.eq_cons opens closed
      obtain ⟨expected, closes⟩ := Option.isSome_iff_exists.1 closes
      have differ : o ≠ expected := by
        rintro rfl
        exact other closes
      rw [meet_closer line known closes, close, if_neg differ]
      rfl

theorem foldlM_of_faulty {before after : List Mark} {opened : List Opened}
    (h : LeavesOpen before opened) {mark : Mark} {fault : DelimiterFault}
    (faulty : Faulty before mark fault) :
    (before ++ mark :: after).foldlM meet [] = .error (.unbalanced mark.line fault) := by
  rw [List.foldlM_append, foldlM_of_leavesOpen h]
  change (mark :: after).foldlM meet opened = _
  rw [List.foldlM_cons, h.meet_faulty faulty]
  rfl

theorem sound_iff {marks : List Mark} : Sound marks ↔ ∃ opened, LeavesOpen marks opened := by
  constructor
  · intro sound
    refine (leavesOpen_or_faulty marks).resolve_right ?_
    rintro ⟨before, mark, after, fault, opened, split, -, faulty⟩
    exact sound before mark after fault split faulty
  · rintro ⟨opened, leaves⟩ before mark after fault rfl faulty
    have passes := foldlM_of_leavesOpen leaves
    -- In front of this mark there may be one that is faulty already.
    rcases leavesOpen_or_faulty before with
      ⟨between, fits⟩ | ⟨earlier, first, others, fault', between, rfl, fits, faulty'⟩
    · rw [foldlM_of_faulty fits faulty] at passes
      cases passes
    · rw [List.append_assoc, List.cons_append, foldlM_of_faulty fits faulty'] at passes
      cases passes

theorem foldlM_eq_ok {marks : List Mark} {opened : List Opened} :
    marks.foldlM meet [] = .ok opened ↔ LeavesOpen marks opened := by
  constructor
  · intro passes
    rcases leavesOpen_or_faulty marks with
      ⟨opened', leaves⟩ | ⟨before, mark, after, fault, between, rfl, fits, faulty⟩
    · rw [foldlM_of_leavesOpen leaves] at passes
      rwa [← Except.ok.inj passes]
    · rw [foldlM_of_faulty fits faulty] at passes
      cases passes
  · exact foldlM_of_leavesOpen

theorem foldlM_eq_error {marks : List Mark} {failure : Failure} :
    marks.foldlM meet [] = .error failure ↔
      ∃ before mark after fault, marks = before ++ mark :: after ∧ Sound before ∧
        Faulty before mark fault ∧ failure = .unbalanced mark.line fault := by
  constructor
  · intro fails
    rcases leavesOpen_or_faulty marks with
      ⟨opened, leaves⟩ | ⟨before, mark, after, fault, between, rfl, fits, faulty⟩
    · rw [foldlM_of_leavesOpen leaves] at fails
      cases fails
    · rw [foldlM_of_faulty fits faulty] at fails
      exact ⟨before, mark, after, fault, rfl, sound_iff.2 ⟨between, fits⟩, faulty,
        (Except.error.inj fails).symm⟩
  · rintro ⟨before, mark, after, fault, rfl, sound, faulty, rfl⟩
    obtain ⟨between, fits⟩ := sound_iff.1 sound
    exact foldlM_of_faulty fits faulty

theorem allClosed_iff_leavesOpen {marks : List Mark} : AllClosed marks ↔ LeavesOpen marks [] := by
  constructor
  · exact .nothing
  · intro h
    cases h with
    | nothing closed => exact closed

/-- The marks of a text. -/
def marksOf (text : String) : List Mark := textMarks 1 (Text.pieces (· = '\n') text.toList)

theorem checkDelimiters_eq (text : String) :
    checkDelimiters text = (marksOf text).foldlM meet [] >>= fun opened =>
      match opened with
      | [] => .ok ()
      | o :: _ => .error (.unbalanced o.line (.neverClosed o.delimiter)) := by
  rw [checkDelimiters, scanLines_eq]
  rfl

theorem checkDelimiters_eq_error {text : String} {failure : Failure} :
    checkDelimiters text = .error failure ↔
      ∃ line fault, failure = .unbalanced line fault ∧ Wrong (marksOf text) line fault := by
  rw [checkDelimiters_eq, bind_eq_error, foldlM_eq_error]
  constructor
  · rintro (⟨before, mark, after, fault, split, sound, faulty, rfl⟩ | ⟨opened, passes, left⟩)
    · exact ⟨_, fault, rfl, .first split sound faulty⟩
    · have leaves := foldlM_eq_ok.1 passes
      have sound := sound_iff.2 ⟨opened, leaves⟩
      generalize marksOf text = marks at *
      cases leaves with
      | nothing => cases left
      | opened known outside opens closed =>
          exact ⟨_, _, (Except.error.inj left).symm, .neverClosed sound known opens rfl closed⟩
  · rintro ⟨_, _, rfl, wrong⟩
    generalize marksOf text = marks at *
    cases wrong with
    | first split sound faulty => exact .inl ⟨_, _, _, _, split, sound, faulty, rfl⟩
    | neverClosed sound known opens split closed =>
        obtain ⟨opened, leaves⟩ := sound_iff.1 sound
        refine .inr ⟨opened, foldlM_of_leavesOpen leaves, ?_⟩
        subst split
        obtain ⟨below, rfl⟩ := leaves.eq_cons opens closed
        rfl

theorem mapM_delimiter?_eq_some {marks : List Mark} {ds : List Char} :
    marks.mapM Mark.delimiter? = some ds ↔
      (∀ line, .unfinished line ∉ marks) ∧ marks.filterMap Mark.delimiter? = ds := by
  induction marks generalizing ds with
  | nil => simp [eq_comm]
  | cons mark rest ih =>
      cases mark with
      | unfinished line =>
          constructor
          · intro h
            cases h
          · rintro ⟨finished, -⟩
            exact absurd List.mem_cons_self (finished line)
      | delimiter c line known =>
          rw [mapM_delimiter, Option.map_eq_some_iff]
          simp [ih, Mark.delimiter?, and_assoc]

/-- On marks the Dyck words are those of their delimiters. -/
theorem allClosed_iff {marks : List Mark} :
    AllClosed marks ↔
      (∀ line, .unfinished line ∉ marks) ∧ Balanced (marks.filterMap Mark.delimiter?) := by
  have run := foldlM_toOption [] marks
  calc AllClosed marks
    _ ↔ marks.foldlM meet [] = .ok [] := by rw [allClosed_iff_leavesOpen, foldlM_eq_ok]
    _ ↔ (marks.foldlM meet []).toOption.map delimiters = some [] := by
        simp [Option.map_eq_some_iff, toOption_eq_some, delimiters]
    _ ↔ ∃ ds, marks.mapM Mark.delimiter? = some ds ∧ feed [] ds = some [] := by
        rw [run, Option.bind_eq_some_iff]
        rfl
    _ ↔ _ := by simp only [mapM_delimiter?_eq_some, ← balanced_iff, and_assoc, exists_eq_left',
        exists_and_left]

theorem checkDelimiters_eq_ok_iff {text : String} :
    checkDelimiters text = .ok () ↔ AllClosed (marksOf text) := by
  rw [checkDelimiters_eq, bind_eq_ok, allClosed_iff_leavesOpen, ← foldlM_eq_ok]
  constructor
  · rintro ⟨opened, passes, done⟩
    cases opened with
    | nil => exact passes
    | cons => cases done
  · intro passes
    exact ⟨[], passes, rfl⟩

/-- A text has one reading, and by it the check passes when no line ends in a string and the
delimiters of all lines together are balanced. Otherwise it reports what is wrong first. -/
theorem checkDelimiters_follows_marks (text : String) :
    ∃ marks,
      (∀ others, TextMarks 1 (Text.pieces (· = '\n') text.toList) others ↔ others = marks) ∧
      (checkDelimiters text = .ok () ↔
        (∀ line, .unfinished line ∉ marks) ∧ Balanced (marks.filterMap Mark.delimiter?)) ∧
      ∀ failure, checkDelimiters text = .error failure ↔
        ∃ line fault, failure = .unbalanced line fault ∧ Wrong marks line fault := by
  refine ⟨marksOf text, fun _ => textMarks_iff, ?_, fun _ => checkDelimiters_eq_error⟩
  rw [checkDelimiters_eq_ok_iff, allClosed_iff]

-- What stands in the string and behind the slashes does not count.
example : checkDelimiters "f(\"]\") [\n  // ]\n)" =
    .error (.unbalanced 3 (.mismatch ')' '[' 1)) := by
  cbv

end DesignTokens.Swift
