import DesignTokens.Swift.Delimiters
import DesignTokens.Proofs.Sequencing

/-!
What the check of delimiters accepts. A line exposes the delimiters that stand neither in a string
nor in a comment, and the exposed delimiters of all lines, one line after another, are fed to a
stack. Balanced delimiters leave the stack as it was. With the lines they stand on, the delimiters
are marks of the text, and the check is one run over all its marks.
-/
namespace DesignTokens.Swift

def isDelimiter (c : Char) : Bool := isOpener c || (opener? c).isSome

/-- What the next character of a line belongs to. -/
inductive Within where
  | code
  | string
  | escape
deriving DecidableEq

/-- The delimiters of the rest of a line that count, if the line does not end in a string. -/
def exposed : Within → List Char → Option (List Char)
  | .code, [] => some []
  | .string, [] => none
  | .escape, [] => none
  | .escape, _ :: rest => exposed .string rest
  | .string, c :: rest =>
    exposed (if c = '\\' then .escape else if c = '"' then .code else .string) rest
  | .code, c :: rest =>
    if c = '"' then exposed .string rest
    else if c = '/' && rest.head? = some '/' then some []
    else (exposed .code rest).map fun ds => if isDelimiter c then c :: ds else ds

def exposedLines : List (List Char) → Option (List Char)
  | [] => some []
  | text :: rest =>
    (exposed .code text).bind fun ds => (exposedLines rest).map fun others => ds ++ others

/-- The stack behind some delimiters, unless one of them closes what is not open. -/
def feed (stack : List Char) : List Char → Option (List Char)
  | [] => some stack
  | c :: rest =>
    if isOpener c then feed (c :: stack) rest
    else
      match stack with
      | [] => none
      | o :: below => if opener? c = some o then feed below rest else none

inductive Balanced : List Char → Prop
  | nil : Balanced []
  | enclose {opening closing : Char} {inner rest : List Char}
      (fits : opener? closing = some opening) (inside : Balanced inner) (behind : Balanced rest) :
      Balanced (opening :: inner ++ closing :: rest)

theorem isOpener_of_opener? {closing opening : Char} (h : opener? closing = some opening) :
    isOpener opening ∧ ¬ isOpener closing := by
  unfold opener? at h
  split at h <;> cases h <;> decide

theorem isOpener_of_isDelimiter {c : Char} (known : isDelimiter c) (notCloser : opener? c = none) :
    isOpener c := by
  rwa [isDelimiter, notCloser, Option.isSome_none, Bool.or_false] at known

theorem feed_opener {c : Char} {stack rest : List Char} (h : isOpener c) :
    feed stack (c :: rest) = feed (c :: stack) rest := by
  cases stack <;> rw [feed, if_pos h]

theorem feed_closer {c o : Char} {below rest : List Char} (h : opener? c = some o) :
    feed (o :: below) (c :: rest) = feed below rest := by
  rw [feed, if_neg (isOpener_of_opener? h).2, if_pos h]

theorem feed_append (stack a b : List Char) :
    feed stack (a ++ b) = (feed stack a).bind fun between => feed between b := by
  fun_induction feed stack a with
  | case1 => rfl
  | case2 stack c rest opens ih => rw [List.cons_append, feed_opener opens, ih]
  | case3 c rest closes => simp [feed, closes]
  | case4 c rest closes o below fits ih => rw [List.cons_append, feed_closer fits, ih]
  | case5 c rest closes o below misfit => simp [feed, closes, misfit]

namespace Balanced

theorem feed_eq {ds : List Char} (h : Balanced ds) (stack : List Char) :
    feed stack ds = some stack := by
  induction h generalizing stack with
  | nil => rw [feed]
  | enclose fits _ _ inside behind =>
      rw [List.cons_append, feed_opener (isOpener_of_opener? fits).1, feed_append, inside,
        Option.bind_some, feed_closer fits, behind]

theorem append {a b : List Char} (ha : Balanced a) (hb : Balanced b) : Balanced (a ++ b) := by
  induction ha with
  | nil => exact hb
  | enclose fits inside _ _ behind =>
      rw [List.append_assoc, List.cons_append]
      exact .enclose fits inside behind

theorem pair {opening closing : Char} {inner : List Char} (fits : opener? closing = some opening)
    (inside : Balanced inner) : Balanced (opening :: inner ++ [closing]) :=
  .enclose fits inside .nil

end Balanced

/-- What is left closes the stack from the top, with balanced delimiters before every closing. -/
def Closes : List Char → List Char → Prop
  | [], ds => Balanced ds
  | o :: below, ds =>
    ∃ inner closing rest, ds = inner ++ closing :: rest ∧ Balanced inner ∧
      opener? closing = some o ∧ Closes below rest

theorem Closes.behind {stack ds block : List Char} (h : Closes stack ds)
    (balanced : Balanced block) : Closes stack (block ++ ds) := by
  cases stack with
  | nil => exact balanced.append h
  | cons o below =>
      obtain ⟨inner, closing, rest, rfl, inside, fits, others⟩ := h
      exact ⟨block ++ inner, closing, rest, by rw [List.append_assoc], balanced.append inside,
        fits, others⟩

theorem closes_of_feed {stack ds : List Char} (h : feed stack ds = some []) :
    Closes stack ds := by
  fun_induction feed stack ds with
  | case1 stack =>
      obtain rfl := Option.some.inj h
      exact .nil
  | case2 stack c rest opens ih =>
      obtain ⟨inner, closing, rest, rfl, inside, fits, others⟩ := ih h
      have block : Balanced (c :: inner ++ [closing]) := .enclose fits inside .nil
      have behind := others.behind block
      rwa [List.append_assoc, List.singleton_append] at behind
  | case3 => cases h
  | case4 c rest closes o below fits ih => exact ⟨[], c, rest, rfl, .nil, fits, ih h⟩
  | case5 => cases h

theorem balanced_iff {ds : List Char} : Balanced ds ↔ feed [] ds = some [] := by
  constructor
  · intro h
    exact h.feed_eq []
  · intro h
    exact closes_of_feed h

instance (ds : List Char) : Decidable (Balanced ds) := decidable_of_iff _ balanced_iff.symm

section Scanning

def delimiters (opened : List Opened) : List Char := opened.map Opened.delimiter

def within (inString : Bool) : Within := if inString then .string else .code

private theorem toOption_bind {ε α β : Type} (x : Except ε α) (f : α → Except ε β) :
    (x >>= f).toOption = x.toOption.bind fun a => (f a).toOption := by
  cases x <;> rfl

/-- A delimiter that counts, or the end of a line within a string. -/
inductive Mark where
  | delimiter (c : Char) (line : Nat) (known : isDelimiter c)
  | unfinished (line : Nat)

namespace Mark

def line : Mark → Nat
  | delimiter _ line _ => line
  | unfinished line => line

def delimiter? : Mark → Option Char
  | delimiter c _ _ => some c
  | unfinished _ => none

end Mark

/-- The marks of the rest of a line. -/
def lineMarks (line : Nat) : Within → List Char → List Mark
  | .code, [] => []
  | .string, [] => [.unfinished line]
  | .escape, [] => [.unfinished line]
  | .escape, _ :: rest => lineMarks line .string rest
  | .string, c :: rest =>
    lineMarks line (if c = '\\' then .escape else if c = '"' then .code else .string) rest
  | .code, c :: rest =>
    if c = '"' then lineMarks line .string rest
    else if c = '/' && rest.head? = some '/' then []
    else if known : isDelimiter c then .delimiter c line known :: lineMarks line .code rest
    else lineMarks line .code rest

def textMarks (line : Nat) : List (List Char) → List Mark
  | [] => []
  | text :: rest => lineMarks line .code text ++ textMarks (line + 1) rest

/-- What a mark does to the delimiters opened so far. -/
def meet (opened : List Opened) : Mark → Except Failure (List Opened)
  | .unfinished line => .error (.unbalanced line .unterminatedString)
  | .delimiter c line _ =>
    match opener? c with
    | some expected => close line c expected opened
    | none => .ok (⟨c, line⟩ :: opened)

theorem meet_opener {c : Char} (line : Nat) (known : isDelimiter c) (opens : isOpener c)
    (opened : List Opened) : meet opened (.delimiter c line known) = .ok (⟨c, line⟩ :: opened) := by
  have notCloser : opener? c = none := by
    cases closes : opener? c with
    | none => rfl
    | some o => exact absurd opens (isOpener_of_opener? closes).2
  rw [meet, notCloser]

theorem meet_closer {c o : Char} (line : Nat) (known : isDelimiter c) (closes : opener? c = some o)
    (opened : List Opened) : meet opened (.delimiter c line known) = close line c o opened := by
  rw [meet, closes]

theorem not_comment {c : Char} {rest : List Char}
    (slashes : ∀ more, c = '/' → rest ≠ '/' :: more) :
    ¬ (c = '/' && rest.head? = some '/') := by
  cases rest with
  | nil => simp
  | cons d more => simpa using fun hc hd => slashes more hc (by rw [hd])

theorem exposed_cons {c : Char} {rest : List Char} (quote : c ≠ '"')
    (slashes : ∀ more, c = '/' → rest ≠ '/' :: more) :
    exposed .code (c :: rest) =
      (exposed .code rest).map fun ds => if isDelimiter c then c :: ds else ds := by
  rw [exposed, if_neg quote, if_neg (not_comment slashes)]

theorem lineMarks_cons (line : Nat) {c : Char} {rest : List Char} (quote : c ≠ '"')
    (slashes : ∀ more, c = '/' → rest ≠ '/' :: more) :
    lineMarks line .code (c :: rest) =
      if known : isDelimiter c then .delimiter c line known :: lineMarks line .code rest
      else lineMarks line .code rest := by
  rw [lineMarks, if_neg quote, if_neg (not_comment slashes)]

theorem scanLine_eq (line : Nat) (inString : Bool) (opened : List Opened) (cs : List Char) :
    scanLine line inString opened cs =
      (lineMarks line (within inString) cs).foldlM meet opened := by
  fun_induction scanLine line inString opened cs with
  | case1 => rfl
  | case2 inString opened outside =>
      obtain rfl := eq_false_of_ne_true outside
      rfl
  | case3 => rfl
  | case4 inString opened outside =>
      obtain rfl := eq_false_of_ne_true outside
      rfl
  | case5 opened c rest ih => exact ih
  | case6 inString opened c rest outside ih =>
      obtain rfl := eq_false_of_ne_true outside
      exact ih
  | case7 inString opened rest ih => cases inString <;> exact ih
  | case8 opened rest ih => exact ih
  | case9 inString opened rest outside =>
      obtain rfl := eq_false_of_ne_true outside
      rfl
  | case10 opened c rest lone escape quote slashes ih =>
      have notEscape : c ≠ '\\' := by
        intro h
        cases rest with
        | nil => exact lone h rfl
        | cons d more => exact escape d more h rfl
      rw [ih, within, if_pos rfl, lineMarks, if_neg notEscape, if_neg quote]
  | case11 inString opened c rest lone escape quote slashes outside opens ih =>
      obtain rfl := eq_false_of_ne_true outside
      have known : isDelimiter c := by rw [isDelimiter, opens, Bool.true_or]
      change _ = (lineMarks line .code (c :: rest)).foldlM meet opened
      rw [ih, lineMarks_cons line quote slashes, dif_pos known, List.foldlM_cons,
        meet_opener line known opens]
      rfl
  | case12 inString opened c rest lone escape quote slashes outside opens expected closes ih =>
      obtain rfl := eq_false_of_ne_true outside
      have known : isDelimiter c := by rw [isDelimiter, closes, Option.isSome_some, Bool.or_true]
      change _ = (lineMarks line .code (c :: rest)).foldlM meet opened
      rw [lineMarks_cons line quote slashes, dif_pos known, List.foldlM_cons,
        meet_closer line known closes]
      simp only [ih]
      rfl
  | case13 inString opened c rest lone escape quote slashes outside opens closes ih =>
      obtain rfl := eq_false_of_ne_true outside
      have unknown : ¬ isDelimiter c := by simp [isDelimiter, opens, closes]
      change _ = (lineMarks line .code (c :: rest)).foldlM meet opened
      rw [ih, lineMarks_cons line quote slashes, dif_neg unknown]
      rfl

theorem scanLines_eq (line : Nat) (opened : List Opened) (texts : List (List Char)) :
    scanLines line opened texts = (textMarks line texts).foldlM meet opened := by
  induction texts generalizing line opened with
  | nil => rfl
  | cons text rest ih =>
      rw [scanLines, textMarks, List.foldlM_append, scanLine_eq]
      simp only [ih]
      rfl

theorem mapM_delimiter (c : Char) (line : Nat) (known : isDelimiter c) (rest : List Mark) :
    (.delimiter c line known :: rest : List Mark).mapM Mark.delimiter? =
      (rest.mapM Mark.delimiter?).map (c :: ·) := by
  rw [List.mapM_cons]
  cases rest.mapM Mark.delimiter? <;> rfl

/-- Without their lines the marks are fed to the stack as plain characters. -/
theorem foldlM_toOption (opened : List Opened) (marks : List Mark) :
    (marks.foldlM meet opened).toOption.map delimiters =
      (marks.mapM Mark.delimiter?).bind (feed (delimiters opened)) := by
  induction marks generalizing opened with
  | nil => rfl
  | cons mark rest ih =>
      rw [List.foldlM_cons, toOption_bind, Option.map_bind]
      cases mark with
      | unfinished line => rfl
      | delimiter c line known =>
          rw [mapM_delimiter, Option.bind_map]
          cases closes : opener? c with
          | none =>
              have opens := isOpener_of_isDelimiter known closes
              rw [meet_opener line known opens]
              simp only [Function.comp_def, feed_opener opens]
              exact ih _
          | some expected =>
              rw [meet_closer line known closes]
              cases opened with
              | nil =>
                  simp [close, Except.toOption, delimiters, Function.comp_def, feed,
                    (isOpener_of_opener? closes).2]
              | cons o below =>
                  by_cases same : o.delimiter = expected
                  · have fits : opener? c = some o.delimiter := by rw [closes, same]
                    rw [close, if_pos same]
                    simp only [Function.comp_def, delimiters, List.map_cons, feed_closer fits]
                    exact ih below
                  · simp [close, if_neg same, Except.toOption, delimiters, Function.comp_def, feed,
                      (isOpener_of_opener? closes).2, closes, Ne.symm same]

theorem exposed_eq (line : Nat) (place : Within) (cs : List Char) :
    exposed place cs = (lineMarks line place cs).mapM Mark.delimiter? := by
  fun_induction lineMarks line place cs with
  | case1 => rfl
  | case2 => rfl
  | case3 => rfl
  | case4 c rest ih => exact ih
  | case5 c rest ih => exact ih
  | case6 rest ih => exact ih
  | case7 c rest quote slashes =>
      rw [exposed, if_neg quote, if_pos slashes]
      rfl
  | case8 c rest quote slashes known ih =>
      rw [exposed, if_neg quote, if_neg slashes, ih, mapM_delimiter]
      simp only [known, if_true]
  | case9 c rest quote slashes unknown ih =>
      rw [exposed, if_neg quote, if_neg slashes, ih]
      simp [unknown]

theorem exposedLines_eq (line : Nat) (texts : List (List Char)) :
    exposedLines texts = (textMarks line texts).mapM Mark.delimiter? := by
  induction texts generalizing line with
  | nil => rfl
  | cons text rest ih =>
      rw [exposedLines, textMarks, List.mapM_append, exposed_eq line, ih (line + 1)]
      congr 1
      funext ds
      cases (textMarks (line + 1) rest).mapM Mark.delimiter? <;> rfl

theorem scanLines_toOption (line : Nat) (opened : List Opened) (texts : List (List Char)) :
    (scanLines line opened texts).toOption.map delimiters =
      (exposedLines texts).bind (feed (delimiters opened)) := by
  rw [scanLines_eq, foldlM_toOption, exposedLines_eq line]

theorem checkDelimiters_eq_ok {text : String} :
    checkDelimiters text = .ok () ↔
      ∃ ds, exposedLines (Text.pieces (· = '\n') text.toList) = some ds ∧ Balanced ds := by
  have scanned := scanLines_toOption 1 [] (Text.pieces (· = '\n') text.toList)
  simp only [balanced_iff]
  rw [← Option.bind_eq_some_iff]
  change _ ↔ Option.bind _ (feed (delimiters [])) = some []
  rw [← scanned, checkDelimiters]
  cases scanLines 1 [] (Text.pieces (· = '\n') text.toList) with
  | error fault => simp [bind, Except.bind, Except.toOption]
  | ok opened =>
      cases opened with
      | nil => simp [bind, Except.bind, Except.toOption, delimiters, pure, Except.pure]
      | cons o below => simp [bind, Except.bind, Except.toOption, delimiters]

end Scanning

/-- Text in which no string and no comment begins. -/
def IsCode (cs : List Char) : Prop := ∀ c ∈ cs, c ≠ '"' ∧ c ≠ '/'

instance (cs : List Char) : Decidable (IsCode cs) := List.decidableBAll _ cs

/-- All delimiters of such a text count. -/
theorem exposed_append {cs : List Char} (code : IsCode cs) (rest : List Char) :
    exposed .code (cs ++ rest) =
      (exposed .code rest).map fun ds => cs.filter isDelimiter ++ ds := by
  induction cs with
  | nil => simp
  | cons c cs ih =>
      obtain ⟨hc, hcs⟩ := List.forall_mem_cons.1 code
      rw [List.cons_append, exposed_cons hc.1 fun _ same => absurd same hc.2, ih hcs]
      cases exposed .code rest with
      | none => rfl
      | some ds =>
          by_cases delimiter : isDelimiter c
          · simp only [Option.map_some, delimiter, if_true, List.filter_cons_of_pos,
              List.cons_append]
          · simp only [Option.map_some, delimiter, if_false, List.filter_cons_of_neg,
              Bool.false_eq_true, not_false_eq_true]

theorem exposedLines_append (a b : List (List Char)) :
    exposedLines (a ++ b) =
      (exposedLines a).bind fun ds => (exposedLines b).map fun others => ds ++ others := by
  induction a with
  | nil => simp [exposedLines]
  | cons text rest ih =>
      rw [List.cons_append, exposedLines, exposedLines, ih]
      cases exposed .code text with
      | none => rfl
      | some ds =>
          cases exposedLines rest with
          | none => rfl
          | some others => simp [Function.comp_def]

/-- The characters that mean something to the check of delimiters, and the end of a line. -/
def meaningful : List Char := ['(', ')', '[', ']', '{', '}', '"', '\\', '/', '\n']

/-- Text that may stand anywhere in a line without changing how the line is read. -/
def Inert (cs : List Char) : Prop := ∀ c ∈ cs, c ∉ meaningful

instance (cs : List Char) : Decidable (Inert cs) := List.decidableBAll _ cs

theorem not_mem_meaningful {p : Char → Bool} (outside : meaningful.all fun c => !p c) {c : Char}
    (h : p c) : c ∉ meaningful := by
  intro hc
  have notP := List.all_eq_true.1 outside c hc
  rw [h] at notP
  exact Bool.false_ne_true notP

theorem mem_meaningful_of_isDelimiter {c : Char} (h : isDelimiter c) : c ∈ meaningful := by
  rw [isDelimiter, isOpener, Bool.or_eq_true] at h
  cases h with
  | inl opens =>
      simp only [Bool.or_eq_true, decide_eq_true_eq] at opens
      simp only [meaningful, List.mem_cons]
      tauto
  | inr closes =>
      unfold opener? at closes
      split at closes
      · decide
      · decide
      · decide
      · exact absurd closes (by decide)

theorem Inert.exposed {cs : List Char} (h : Inert cs) (rest : List Char) :
    exposed .code (cs ++ rest) = exposed .code rest := by
  have code : IsCode cs := by
    intro c hc
    exact ⟨fun same => h c hc (same ▸ by decide), fun same => h c hc (same ▸ by decide)⟩
  have none : cs.filter isDelimiter = [] := by
    rw [List.filter_eq_nil_iff]
    exact fun c hc delimiter => h c hc (mem_meaningful_of_isDelimiter delimiter)
  rw [exposed_append code, none]
  simp

end DesignTokens.Swift
