import DesignTokens.Proofs.WrittenBlocks
import DesignTokens.Yaml.Token

/-!
Steps of the scanner over written text. Only a few facts about where it stands are needed to tell
which token it finds next and where it stands then: the text and the column, the collections that
are open, the tokens so far and whether a key may come.
-/
namespace DesignTokens.Yaml

section Cursors

/-- The column behind a text that begins at `column`. -/
def columnAfter (column : Nat) : List Char → Nat
  | [] => column
  | c :: rest => columnAfter (if isBreak c then 0 else column + 1) rest

variable {place : Cursor} {front rest : List Char} {column : Nat}

theorem columnAfter_of_not_break (h : ∀ c ∈ front, isBreak c = false) :
    columnAfter column front = column + front.length := by
  induction front generalizing column with
  | nil => rfl
  | cons c front ih =>
      obtain ⟨noBreak, h⟩ := List.forall_mem_cons.1 h
      rw [columnAfter, noBreak, if_neg Bool.false_ne_true, ih h, List.length_cons]
      omega

theorem columnAfter_append (more : List Char) :
    columnAfter column (front ++ more) = columnAfter (columnAfter column front) more := by
  induction front generalizing column with
  | nil => rfl
  | cons c front ih => exact ih

/-- What is known of a cursor that has passed a text. -/
structure Passed (place : Cursor) (front rest : List Char) (later : Cursor) : Prop where
  rest : later.rest = rest
  column : later.column = columnAfter place.column front
  line : later.line = place.line + front.countP isBreak
  offset : later.offset = place.offset + (front.map Char.utf8Size).sum

theorem passed_skip (h : place.rest = front ++ rest) :
    Passed place front rest (place.skip front.length) := by
  induction front generalizing place with
  | nil => exact ⟨h, rfl, rfl, rfl⟩
  | cons c front ih =>
      have first : place.advance = if isBreak c
          then ⟨front ++ rest, place.offset + c.utf8Size, place.line + 1, 0⟩
          else ⟨front ++ rest, place.offset + c.utf8Size, place.line, place.column + 1⟩ := by
        rw [Cursor.advance, h]
        rfl
      have text : place.advance.rest = front ++ rest := by
        rw [first]
        split <;> rfl
      obtain ⟨remains, column, line, offset⟩ := ih text
      refine ⟨remains, ?_, ?_, ?_⟩
      · rw [List.length_cons, Cursor.skip, column, first, columnAfter]
        split <;> rfl
      · rw [List.length_cons, Cursor.skip, line, first, List.countP_cons]
        split <;> (dsimp only; omega)
      · rw [List.length_cons, Cursor.skip, offset, first, List.map_cons, List.sum_cons]
        split <;> (dsimp only; omega)

theorem passed_skipTo (h : place.rest = front ++ rest) :
    Passed place front rest (place.skipTo rest) := by
  rw [Cursor.skipTo, h, List.length_append, Nat.add_sub_cancel]
  exact passed_skip h

end Cursors

namespace Scan

section Standing

/-- Where a scan stands outside of flow collections, no key being possible before. -/
structure Stands (s : Scan) (rest : List Char) (column : Nat) (columns : List Nat)
    (tokens : List Token) (allowed : Bool) : Prop where
  rest : s.cursor.rest = rest
  column : s.cursor.column = column
  columns : s.columns = columns
  tokens : s.tokens = tokens
  allowed : s.keyAllowed = allowed
  key : s.key = none
  flat : s.outerKeys = []

variable {s t : Scan} {gaps rest : List Char} {column : Nat} {columns : List Nat}
  {tokens : List Token} {allowed : Bool}

theorem inFlow_eq_false (flat : s.outerKeys = []) : s.inFlow = false := by
  rw [inFlow, flat]
  rfl

theorem skipGaps_append (blank : ∀ c ∈ gaps, c = ' ' ∨ isBreak c = true)
    (starts : StartsToken rest) :
    skipGaps false false allowed column (gaps ++ rest) = (rest, allowed || gaps.any isBreak) := by
  induction gaps generalizing allowed column with
  | nil =>
      rw [List.nil_append, List.any_nil, Bool.or_false]
      cases rest with
      | nil => rfl
      | cons c rest =>
          obtain ⟨noGap, comment, mark⟩ := startsToken_cons.1 starts
          have noSpace : c ≠ ' ' := ne_of_isGap noGap (by decide)
          have noTab : c ≠ '\t' := ne_of_isGap noGap (by decide)
          simp [skipGaps, isBreak_eq_false_of_isGap noGap, comment, mark, noSpace, noTab]
  | cons c gaps ih =>
      obtain ⟨here, blank⟩ := List.forall_mem_cons.1 blank
      rw [List.cons_append, skipGaps, List.any_cons]
      cases broken : isBreak c with
      | true => simp [ih blank]
      | false =>
          have space : c = ' ' := here.resolve_right (by simp [broken])
          simp [space, ih blank]

/-- Collections are closed that begin further right than the next token. -/
def closing (column : Nat) (columns : List Nat) : List Token :=
  (columns.takeWhile (column < ·)).map fun _ => .blockEnd

/-- The collections that are left open by a token at `column`. -/
def leftOpen (column : Nat) (columns : List Nat) : List Nat := columns.dropWhile (column < ·)

theorem leftOpen_eq_self (nested : ∀ outer ∈ columns.head?, outer ≤ column) :
    leftOpen column columns = columns := by
  cases columns with
  | nil => rfl
  | cons outer columns =>
      have within : ¬ column < outer := Nat.not_lt.2 (nested outer rfl)
      rw [leftOpen, List.dropWhile_cons_of_neg (by simpa using within)]

theorem closing_eq_nil (nested : ∀ outer ∈ columns.head?, outer ≤ column) :
    closing column columns = [] := by
  cases columns with
  | nil => rfl
  | cons outer columns =>
      have within : ¬ column < outer := Nat.not_lt.2 (nested outer rfl)
      rw [closing, List.takeWhile_cons_of_neg (by simpa using within)]
      rfl

theorem settle_eq_ok (text : s.cursor.rest = gaps ++ rest) (starts : StartsToken rest)
    (blank : ∀ c ∈ gaps, c = ' ' ∨ isBreak c = true) (flat : s.outerKeys = [])
    {key : Option PossibleKey} (expired : expireKey (s.cursor.skipTo rest) s.key = .ok key) :
    ∃ t, s.settle = .ok t ∧ t.cursor = s.cursor.skipTo rest ∧ t.key = key ∧ t.outerKeys = [] ∧
      t.keyAllowed = (s.keyAllowed || gaps.any isBreak) ∧
      t.columns = leftOpen t.cursor.column s.columns ∧
      t.tokens = closing t.cursor.column s.columns ++ s.tokens := by
  have inBlock := inFlow_eq_false flat
  have gapless : skipGaps s.inFlow false s.keyAllowed s.cursor.column s.cursor.rest =
      (rest, s.keyAllowed || gaps.any isBreak) := by
    rw [inBlock, text, skipGaps_append blank starts]
  let place := s.cursor.skipTo rest
  refine ⟨{ s with
    cursor := place
    key := key
    outerKeys := []
    keyAllowed := s.keyAllowed || gaps.any isBreak
    columns := leftOpen place.column s.columns
    tokens := closing place.column s.columns ++ s.tokens }, ?_, rfl, rfl, rfl, rfl, rfl, rfl⟩
  have outer : s.outerKeys.mapM (expireKey place) = .ok [] := by
    rw [flat]
    rfl
  rw [settle, gapless]
  exact bind_eq_ok.2 ⟨key, expired, bind_eq_ok.2 ⟨[], outer, rfl⟩⟩

/-- Going on over white space to the next token. -/
theorem Stands.settle (h : s.Stands (gaps ++ rest) column columns tokens allowed)
    (blank : ∀ c ∈ gaps, c = ' ' ∨ isBreak c = true) (starts : StartsToken rest) :
    ∃ t, s.settle = .ok t ∧ t.Stands rest (columnAfter column gaps)
      (leftOpen (columnAfter column gaps) columns)
      (closing (columnAfter column gaps) columns ++ tokens) (allowed || gaps.any isBreak) := by
  have passed := passed_skipTo h.rest
  have expired : expireKey (s.cursor.skipTo rest) s.key = .ok none := by
    rw [h.key]
    rfl
  obtain ⟨t, settled, cursor, key, flat, allowed, columns, tokens⟩ :=
    settle_eq_ok h.rest starts blank h.flat expired
  have column : t.cursor.column = columnAfter column gaps := by
    rw [cursor, passed.column, h.column]
  refine ⟨t, settled, ?_, column, ?_, ?_, ?_, key, flat⟩
  · rw [cursor, passed.rest]
  · rw [columns, column, h.columns]
  · rw [tokens, column, h.columns, h.tokens]
  · rw [allowed, h.allowed]

end Standing

section Dispatch

variable {s : Scan} {c : Char} {rest : List Char}

/-- A plain text may begin so, whatever it is going to be. -/
def OpensPlain (c : Char) (rest : List Char) : Prop :=
  isGap c = false ∧
    (isIndicator c = false ∨ (c = '-' ∨ c = '?' ∨ c = ':') ∧ startsGap rest = false)

theorem token_of_plain (flat : s.outerKeys = []) (opens : OpensPlain c rest)
    (mark : s.cursor.column = 0 → startsDocumentMark (c :: rest) = false) :
    s.token c rest = s.plain := by
  obtain ⟨noGap, opens⟩ := opens
  have inBlock := inFlow_eq_false flat
  have other : ∀ d, isIndicator d = true → d ≠ '-' ∧ d ≠ '?' ∧ d ≠ ':' → c ≠ d := by
    rintro d indicator ⟨dash, question, colon⟩ rfl
    rcases opens with opens | ⟨opens, -⟩
    · rw [opens] at indicator
      cases indicator
    · exact (opens.resolve_left dash).elim question colon
  have apart : ∀ d, isIndicator d = true → (decide (c = d) && startsGap rest) = false := by
    rintro d indicator
    rw [Bool.and_eq_false_iff, decide_eq_false_iff_not]
    rcases opens with opens | ⟨-, opens⟩
    · refine Or.inl ?_
      rintro rfl
      rw [opens] at indicator
      cases indicator
    · exact Or.inr opens
  have starts : startsPlain false c rest = true := by
    rcases opens with opens | ⟨opens, inWord⟩
    · simp [startsPlain, opens, noGap]
    · cases rest with
      | nil => cases inWord
      | cons d rest =>
          rcases opens with rfl | rfl | rfl
          · simp [startsPlain, isSpace_eq_false_of_isGap inWord]
          · simp [startsPlain, inWord]
          · simp [startsPlain, inWord]
  have noMark : (decide (s.cursor.column = 0) && startsDocumentMark (c :: rest)) = false := by
    rw [Bool.and_eq_false_imp]
    exact fun first => mark (of_decide_eq_true first)
  rw [token, inBlock]
  simp only [noMark, Bool.false_or, Bool.not_false, Bool.and_true, apart '-' (by decide),
    apart '?' (by decide), apart ':' (by decide), other '%' (by decide) (by decide),
    other '[' (by decide) (by decide), other ']' (by decide) (by decide),
    other '\x7b' (by decide) (by decide), other '\x7d' (by decide) (by decide),
    other ',' (by decide) (by decide), other '*' (by decide) (by decide),
    other '&' (by decide) (by decide), other '!' (by decide) (by decide),
    other '|' (by decide) (by decide), other '>' (by decide) (by decide),
    other '\x27' (by decide) (by decide), other '"' (by decide) (by decide), starts,
    decide_false, Bool.and_false, Bool.false_eq_true, if_false, if_true]

end Dispatch

section Keys

/-- A character that stands for itself wherever it follows no white space. -/
structure KeyChar (c : Char) : Prop where
  noGap : isGap c = false
  indicator : isIndicator c = false
  noMark : c ≠ orderMark
  noDot : c ≠ '.'
  printable : isPrintable c = true
  size : c.utf8Size = 1

instance (c : Char) : Decidable (KeyChar c) :=
  decidable_of_iff (isGap c = false ∧ isIndicator c = false ∧ c ≠ orderMark ∧ c ≠ '.' ∧
      isPrintable c = true ∧ c.utf8Size = 1)
    ⟨fun ⟨noGap, indicator, noMark, noDot, printable, size⟩ =>
      ⟨noGap, indicator, noMark, noDot, printable, size⟩,
    fun h => ⟨h.noGap, h.indicator, h.noMark, h.noDot, h.printable, h.size⟩⟩

/-- A name that may be a key as it stands. -/
structure KeyName (name : List Char) : Prop where
  chars : ∀ c ∈ name, KeyChar c
  notEmpty : name ≠ []
  short : name.length ≤ maxKeySize

instance (name : List Char) : Decidable (KeyName name) :=
  decidable_of_iff (name.all (fun c => KeyChar c) = true ∧ name ≠ [] ∧ name.length ≤ maxKeySize)
    ⟨fun ⟨chars, notEmpty, short⟩ =>
      ⟨fun c hc => of_decide_eq_true (List.all_eq_true.1 chars c hc), notEmpty, short⟩,
    fun h =>
      ⟨List.all_eq_true.2 fun c hc => decide_eq_true (h.chars c hc), h.notEmpty, h.short⟩⟩

theorem KeyChar.ne {c d : Char} (h : KeyChar c) (indicator : isIndicator d = true) : c ≠ d := by
  rintro rfl
  exact Bool.false_ne_true (h.indicator.symm.trans indicator)

variable {s t : Scan} {name rest : List Char} {column : Nat} {columns : List Nat}
  {tokens : List Token}

theorem KeyName.noBreak (h : KeyName name) : ∀ c ∈ name, isBreak c = false := fun c hc =>
  isBreak_eq_false_of_isGap (h.chars c hc).noGap

theorem KeyName.size (h : KeyName name) : (name.map Char.utf8Size).sum = name.length := by
  obtain ⟨chars, -, -⟩ := h
  induction name with
  | nil => rfl
  | cons c name ih =>
      obtain ⟨here, chars⟩ := List.forall_mem_cons.1 chars
      rw [List.map_cons, List.sum_cons, ih chars, here.size, List.length_cons, Nat.add_comm]

theorem readPlain_name {indent : Nat} (chars : ∀ c ∈ name, KeyChar c)
    (ends : startsGap rest = true) :
    readPlain false indent [] (name ++ ':' :: rest) = .ok (⟨name, false⟩, ':' :: rest) := by
  induction name with
  | nil =>
      have colon : isGap ':' = false := by decide
      rw [List.nil_append, readPlain]
      simp [colon, endsPlain, ends, endsLine]
  | cons c name ih =>
      obtain ⟨here, chars⟩ := List.forall_mem_cons.1 chars
      have colon : c ≠ ':' := here.ne (by decide)
      rw [List.cons_append, readPlain]
      simp [here.noGap, endsPlain, colon, endsLine, ih chars, Except.map, foldGap]

/-- A key at `column` opens a mapping there if none is open. -/
inductive Opens (column : Nat) (columns : List Nat) : List Nat → List Token → Prop
  | again (h : columns.head? = some column) : Opens column columns columns []
  | anew (h : ∀ outer ∈ columns.head?, outer < column) :
    Opens column columns (column :: columns) [.blockMapping]

theorem run_succ {u : Scan} {fuel : Nat} {c : Char} (settled : s.settle = .ok t)
    (text : t.cursor.rest = c :: rest) (found : t.token c rest = .ok u) :
    s.run (fuel + 1) = u.run fuel := by
  rw [run, settled]
  change (match t.cursor.rest with
    | [] => _
    | c :: rest => _) = _
  rw [text]
  change (t.token c rest >>= fun u => u.run fuel) = _
  rw [found]
  rfl

theorem saveKey_of_allowed (allowed : s.keyAllowed = true) (key : s.key = none) :
    s.saveKey = .ok { s with
      key := some ⟨s.tokens.length, s.cursor.offset, s.cursor.line, s.cursor.column,
        !s.inFlow && s.columns.head? = some s.cursor.column⟩ } := by
  rw [saveKey, if_pos allowed]
  refine bind_eq_ok.2 ⟨{ s with key := none }, ?_, rfl⟩
  rw [dropKey, key]
  rfl

theorem saveKey_of_not_allowed (allowed : s.keyAllowed = false) : s.saveKey = .ok s := by
  rw [saveKey, allowed]
  rfl

/-- A scan that has passed a text and found it to be a scalar. -/
structure Took (s : Scan) (rest : List Char) (key : Option PossibleKey) (plain allowed : Bool)
    (text : List Char) (t : Scan) : Prop where
  cursor : t.cursor = s.cursor.skipTo rest
  key : t.key = key
  allowed : t.keyAllowed = allowed
  columns : t.columns = s.columns
  tokens : t.tokens = .scalar plain text :: s.tokens
  flat : t.outerKeys = []

theorem plain_eq_ok {key : Option PossibleKey} (saved : s.saveKey = .ok { s with key := key })
    (flat : s.outerKeys = []) {found : Plain}
    (read : readPlain false ((s.columns.head?.map (· + 1)).getD 0) [] s.cursor.rest =
      .ok (found, rest)) :
    ∃ t, s.plain = .ok t ∧ s.Took rest key true found.endedLine found.text t := by
  have inBlock : inFlow { s with key := key } = false := inFlow_eq_false flat
  refine ⟨_, bind_eq_ok.2 ⟨_, saved, bind_eq_ok.2 ⟨(found, rest), ?_, rfl⟩⟩,
    rfl, rfl, rfl, rfl, rfl, flat⟩
  rw [inBlock]
  exact read

theorem startsDocumentMark_eq_false {c : Char} (dash : c ≠ '-') (dot : c ≠ '.') :
    startsDocumentMark (c :: rest) = false := by
  unfold startsDocumentMark
  split
  · rename_i same
    exact absurd (List.cons.inj same).1 dash
  · rename_i same
    exact absurd (List.cons.inj same).1 dot
  · rfl

/-- Putting in what announces a key, of whose tokens none but the name is there yet. -/
theorem insert_tokens {later : List Token} (h : s.tokens = later ++ tokens) (token : Token) :
    s.insert tokens.length token = { s with tokens := later ++ token :: tokens } := by
  have length : (later ++ tokens).length - tokens.length = later.length := by
    rw [List.length_append, Nat.add_sub_cancel]
  simp only [insert, h, length, List.take_left, List.drop_left]

/-- Where a scan stands at the colon behind the name of a key. -/
structure Named (s : Scan) (name rest : List Char) (column : Nat) (columns : List Nat)
    (tokens : List Token) : Prop where
  rest : s.cursor.rest = ':' :: rest
  key : ∃ offset line required, s.key = some ⟨tokens.length, offset, line, column, required⟩
  column : s.cursor.column = column + name.length
  columns : s.columns = columns
  tokens : s.tokens = .scalar true name :: tokens
  flat : s.outerKeys = []

theorem run_name {fuel : Nat} (keyName : KeyName name) (settled : s.settle = .ok t)
    (h : t.Stands (name ++ ':' :: rest) column columns tokens true) (ends : startsGap rest = true)
    (nested : ∀ outer ∈ columns.head?, outer ≤ column) :
    ∃ u v : Scan, s.run (fuel + 1) = u.run fuel ∧ u.settle = .ok v ∧
      v.Named name rest column columns tokens := by
  have saved := saveKey_of_allowed h.allowed h.key
  have read := @readPlain_name _ rest ((t.columns.head?.map (· + 1)).getD 0) keyName.chars ends
  rw [← h.rest] at read
  obtain ⟨u, found, took⟩ := plain_eq_ok saved h.flat read
  have first : ∃ c more, t.cursor.rest = c :: more ∧ t.token c more = t.plain := by
    cases name with
    | nil => exact absurd rfl keyName.notEmpty
    | cons c name =>
        have first := keyName.chars c List.mem_cons_self
        exact ⟨c, _, h.rest, token_of_plain h.flat ⟨first.noGap, Or.inl first.indicator⟩
          fun _ => startsDocumentMark_eq_false (first.ne (by decide)) first.noDot⟩
  obtain ⟨c, more, text, plain⟩ := first
  have passed := passed_skipTo h.rest
  rw [← took.cursor] at passed
  have stays := @passed_skipTo u.cursor [] _ passed.rest
  have inTime : expireKey (u.cursor.skipTo (':' :: rest)) u.key = .ok u.key := by
    have line := stays.line
    have offset := stays.offset
    rw [passed.line, List.countP_eq_zero.2 (by simpa using keyName.noBreak)] at line
    rw [passed.offset, keyName.size] at offset
    have short := keyName.short
    rw [took.key, expireKey, PossibleKey.isOver, if_neg]
    simp only [Bool.or_eq_true, decide_eq_true_eq, not_or, Nat.not_lt, line, offset]
    simp
    omega
  obtain ⟨v, settles, place, key, flat, -, left, behind⟩ := settle_eq_ok passed.rest
    (startsToken_cons.2 (by decide)) (List.forall_mem_nil _) took.flat inTime
  have reached : v.cursor.column = column + name.length := by
    rw [place, stays.column, columnAfter, passed.column, h.column,
      columnAfter_of_not_break keyName.noBreak]
  have within : ∀ outer ∈ columns.head?, outer ≤ v.cursor.column := fun outer here =>
    Nat.le_trans (nested outer here) (reached ▸ Nat.le_add_right _ _)
  rw [took.columns, h.columns, leftOpen_eq_self within] at left
  rw [took.columns, h.columns, closing_eq_nil within, List.nil_append, took.tokens, h.tokens]
    at behind
  refine ⟨u, v, run_succ settled text (plain.trans found), settles, ?_, ?_, reached, left, behind,
    flat⟩
  · rw [place, stays.rest]
  · rw [key, took.key, h.tokens, h.column]
    exact ⟨_, _, _, rfl⟩

theorem openBlock_again {put : Token → Scan → Scan} {token : Token}
    (h : s.columns.head? = some column) : s.openBlock column put token = s := by
  rw [openBlock, h, Option.any_some, decide_eq_true (Nat.le_refl column), Bool.or_true, if_pos rfl]

theorem openBlock_anew {put : Token → Scan → Scan} {token : Token} (flat : s.outerKeys = [])
    (h : ∀ outer ∈ s.columns.head?, outer < column) :
    s.openBlock column put token = put token { s with columns := column :: s.columns } := by
  have within : s.columns.head?.any (column ≤ ·) = false := by
    cases here : s.columns.head? with
    | none => rfl
    | some outer => simpa using h outer here
  rw [openBlock, inFlow_eq_false flat, within]
  rfl

theorem Named.takeColon (h : s.Named name rest column columns tokens) (ends : startsGap rest = true)
    {columns' : List Nat} {marks : List Token} (opens : Opens column columns columns' marks) :
    ∃ t : Scan, s.token ':' rest = .ok t ∧ t.Stands rest (column + name.length + 1) columns'
      (.value :: .scalar true name :: .key :: marks ++ tokens) false := by
  have inBlock := inFlow_eq_false h.flat
  have dispatched : s.token ':' rest = s.value := by
    have noMark : startsDocumentMark (':' :: rest) = false :=
      startsDocumentMark_eq_false (by decide) (by decide)
    simp [token, inBlock, noMark, ends]
  obtain ⟨offset, line, required, key⟩ := h.key
  have passed := @passed_skip s.cursor [':'] rest h.rest
  have announced := @insert_tokens s tokens [.scalar true name] h.tokens .key
  have opened : openBlock column (insert tokens.length) .blockMapping
        (s.insert tokens.length .key) =
      { s with
        columns := columns'
        tokens := .scalar true name :: .key :: marks ++ tokens } := by
    rw [announced]
    cases opens with
    | again here =>
        refine (openBlock_again ?_).trans ?_
        · exact h.columns ▸ here
        · simp [h.columns]
    | anew outer =>
        refine (openBlock_anew ?_ ?_).trans ?_
        · exact h.flat
        · exact h.columns ▸ outer
        · refine (@insert_tokens _ tokens [.scalar true name, .key] rfl .blockMapping).trans ?_
          simp [h.columns]
  rw [dispatched, value, key]
  simp only []
  rw [opened]
  refine ⟨_, rfl, passed.rest, ?_, rfl, rfl, rfl, rfl, h.flat⟩
  refine passed.column.trans ?_
  rw [h.column]
  rfl

theorem Opens.nested {columns' : List Nat} {marks : List Token}
    (h : Opens column columns columns' marks) : ∀ outer ∈ columns.head?, outer ≤ column := by
  cases h with
  | again h =>
      intro outer here
      rw [h] at here
      exact Nat.le_of_eq (Option.some.inj here).symm
  | anew h => exact fun outer here => Nat.le_of_lt (h outer here)

theorem run_key {fuel : Nat} (keyName : KeyName name) (settled : s.settle = .ok t)
    (h : t.Stands (name ++ ':' :: rest) column columns tokens true) (ends : startsGap rest = true)
    {columns' : List Nat} {marks : List Token} (opens : Opens column columns columns' marks) :
    ∃ u : Scan, s.run (fuel + 2) = u.run fuel ∧ u.Stands rest (column + name.length + 1) columns'
      (.value :: .scalar true name :: .key :: marks ++ tokens) false := by
  obtain ⟨u, v, ran, settled, named⟩ := run_name keyName settled h ends opens.nested
  obtain ⟨w, found, stands⟩ := named.takeColon ends opens
  exact ⟨w, ran.trans (run_succ settled named.rest found), stands⟩

end Keys

end Scan

end DesignTokens.Yaml
