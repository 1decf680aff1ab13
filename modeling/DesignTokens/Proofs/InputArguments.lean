import DesignTokens.Program.Argument
import DesignTokens.Proofs.FileExtensions
import DesignTokens.Proofs.Trimming

/-!
Which arguments name an input. They list members between commas, with or without brackets around
them; all members but one are blank, and that one is the path of a JSON document. So a path may be
given by itself or in brackets, with blanks and idle commas next to them, and brackets within the
path do no harm.
-/
namespace DesignTokens.Program

open Text (Blanks Trimmed isBlank)

/-! The grammar. -/

/-- What stands between the brackets of an argument, or all of it if it does not have both. -/
def Lists (argument listed : List Char) : Prop :=
  argument = '[' :: listed ++ [']'] ∨
    listed = argument ∧ ∀ between, argument ≠ '[' :: between ++ [']']

/-- Texts without commas that are the whole with a comma between every two. -/
def Members (listed : List Char) (members : List (List Char)) : Prop :=
  members ≠ [] ∧ (∀ member ∈ members, ',' ∉ member) ∧ [','].intercalate members = listed

/-- One member is the path, blanks around it apart, and all others are blank. -/
def NamesOnly (members : List (List Char)) (path : String) : Prop :=
  ∃ before member after, members = before ++ member :: after ∧
    (∀ other ∈ before ++ after, Blanks other) ∧ Text.trim member = path.toList ∧ path ≠ ""

/-- The members that are not blank, without the blanks around them. -/
def filled (members : List (List Char)) : List (List Char) :=
  (members.map Text.trim).filter (!·.isEmpty)

/-- How many members are not blank. -/
def filledCount (members : List (List Char)) : Nat := members.countP fun member => ¬ Blanks member

/-- The file name is that of a JSON document. -/
def IsJson (path : String) : Prop :=
  ∃ stem, stem ≠ [] ∧ Path.EndsIn path.toList (stem ++ '.' :: "json".toList)

section Grammar
variable {argument path : String} {text listed : List Char} {members : List (List Char)}

theorem hasExtension_json : Path.hasExtension path "json" ↔ IsJson path :=
  Path.hasExtension_iff (by decide) (by decide)

theorem unbracket_bracketed (between : List Char) :
    unbracket ('[' :: between ++ [']']) = between := by
  have opened : Text.dropStart? ['['] ('[' :: between ++ [']']) = some (between ++ [']']) :=
    Text.dropStart?_eq_some.2 rfl
  rw [unbracket, opened]
  simp only [Text.dropEnd?_eq_some.2 rfl, Option.getD_some]

theorem unbracket_eq_self (h : ∀ between, text ≠ '[' :: between ++ [']']) :
    unbracket text = text := by
  unfold unbracket
  split
  · rename_i rest opened
    obtain rfl := Text.dropStart?_eq_some.1 opened
    cases closed : Text.dropEnd? [']'] rest with
    | none => rfl
    | some between =>
        obtain rfl := Text.dropEnd?_eq_some.1 closed
        exact absurd rfl (h between)
  · rfl

theorem lists_iff : Lists text listed ↔ unbracket text = listed := by
  constructor
  · rintro (rfl | ⟨rfl, h⟩)
    · exact unbracket_bracketed listed
    · exact unbracket_eq_self h
  · rintro rfl
    by_cases h : ∃ between, text = '[' :: between ++ [']']
    · obtain ⟨between, rfl⟩ := h
      rw [unbracket_bracketed]
      exact .inl rfl
    · rw [not_exists] at h
      exact .inr ⟨unbracket_eq_self h, h⟩

theorem members_iff : Members listed members ↔ Text.pieces (· = ',') listed = members :=
  Text.pieces_eq_iff.symm

theorem inputPaths_eq (lists : Lists (Text.trim argument.toList) listed)
    (parts : Members listed members) :
    inputPaths argument = filled members := by
  rw [inputPaths, lists_iff.1 lists, members_iff.1 parts, filled]

theorem not_isEmpty_trim_iff {member : List Char} :
    (!(Text.trim member).isEmpty) = true ↔ ¬ Blanks member := by
  rw [Bool.not_eq_true', ← Bool.not_eq_true, List.isEmpty_iff, Text.trim_eq_nil_iff]

theorem filled_eq_singleton : filled members = [path.toList] ↔ NamesOnly members path := by
  simp only [filled, List.filter_map, List.map_eq_singleton_iff, List.filter_eq_cons_iff,
    List.filter_eq_nil_iff, Function.comp_apply, not_isEmpty_trim_iff, not_not]
  constructor
  · rintro ⟨member, ⟨before, after, split, front, filled, back⟩, path⟩
    refine ⟨before, member, after, split, List.forall_mem_append.2 ⟨front, back⟩, path, ?_⟩
    rintro rfl
    exact filled (Text.trim_eq_nil_iff.1 path)
  · rintro ⟨before, member, after, split, others, path, present⟩
    obtain ⟨front, back⟩ := List.forall_mem_append.1 others
    refine ⟨member, ⟨before, after, split, front, fun blank => present ?_, back⟩, path⟩
    rw [← String.toList_eq_nil_iff, ← path, Text.trim_eq_nil_iff.2 blank]

theorem length_filled (members : List (List Char)) :
    (filled members).length = filledCount members := by
  rw [filled, ← List.countP_eq_length_filter, List.countP_map]
  refine List.countP_congr fun member _ => ?_
  rw [Function.comp_apply, not_isEmpty_trim_iff, decide_eq_true_eq]

theorem inputPath_of_singleton (single : inputPaths argument = [path.toList]) :
    inputPath argument =
      if Path.hasExtension path "json" then .ok path else .error (.inputExtension path) := by
  simp only [inputPath, single, String.ofList_toList]

theorem inputPath_of_length (several : (inputPaths argument).length ≠ 1) :
    inputPath argument = .error (.inputCount (inputPaths argument).length) := by
  unfold inputPath
  split
  · rename_i one
    rw [one] at several
    exact absurd rfl several
  · rfl

theorem exists_singleton (one : (inputPaths argument).length = 1) :
    ∃ path : String, inputPaths argument = [path.toList] := by
  obtain ⟨letters, single⟩ := List.length_eq_one_iff.1 one
  exact ⟨String.ofList letters, by rw [single, String.toList_ofList]⟩

theorem inputPath_eq_ok :
    inputPath argument = .ok path ↔ inputPaths argument = [path.toList] ∧ IsJson path := by
  by_cases one : (inputPaths argument).length = 1
  · obtain ⟨found, single⟩ := exists_singleton one
    rw [inputPath_of_singleton single, single, List.singleton_inj, String.toList_inj,
      ← hasExtension_json]
    constructor
    · intro h
      split at h
      · rename_i json
        obtain rfl := Except.ok.inj h
        exact ⟨rfl, json⟩
      · cases h
    · rintro ⟨rfl, json⟩
      rw [if_pos json]
  · rw [inputPath_of_length one]
    constructor
    · rintro ⟨⟩
    · rintro ⟨single, -⟩
      exact absurd (congrArg List.length single) one

theorem inputPath_eq_error {failure : Failure} :
    inputPath argument = .error failure ↔
      (∃ path : String, inputPaths argument = [path.toList] ∧ ¬ IsJson path ∧
        failure = .inputExtension path) ∨
      (inputPaths argument).length ≠ 1 ∧ failure = .inputCount (inputPaths argument).length := by
  by_cases one : (inputPaths argument).length = 1
  · obtain ⟨found, single⟩ := exists_singleton one
    simp only [inputPath_of_singleton single, single, List.singleton_inj, String.toList_inj,
      ← hasExtension_json, List.length_singleton, ne_eq, not_true, false_and, or_false]
    constructor
    · intro h
      split at h
      · cases h
      · rename_i other
        exact ⟨found, rfl, other, (Except.error.inj h).symm⟩
    · rintro ⟨_, rfl, other, rfl⟩
      rw [if_neg other]
  · rw [inputPath_of_length one]
    constructor
    · intro h
      exact .inr ⟨one, (Except.error.inj h).symm⟩
    · rintro (⟨_, single, -⟩ | ⟨-, rfl⟩)
      · exact absurd (congrArg List.length single) one
      · rfl

end Grammar

/-! Paths among blanks and commas. -/

/-- What may stand between a path and a bracket. -/
def Filler (cs : List Char) : Prop := ∀ c ∈ cs, isBlank c ∨ c = ','

instance (cs : List Char) : Decidable (Filler cs) := List.decidableBAll _ cs

/-- A path of a JSON document that can be told from what stands around it. -/
structure PlainPath (path : String) : Prop where
  json : IsJson path
  noComma : ',' ∉ path.toList
  trimmed : Trimmed path.toList

/-- A path with nothing but blanks around it. -/
def Pads (member path : String) : Prop :=
  ∃ before after, member.toList = before ++ path.toList ++ after ∧ Blanks before ∧ Blanks after

section Plain
variable {path : String} {cs front back : List Char}

theorem PlainPath.ne_nil (h : PlainPath path) : path.toList ≠ [] := by
  obtain ⟨stem, -, _, _, split, -⟩ := h.json
  rw [split]
  simp

/-- Brackets within a path are not those of the argument: the path does not end in one. -/
theorem PlainPath.not_bracketed (h : PlainPath path) (between : List Char) :
    path.toList ≠ '[' :: between ++ [']'] := by
  intro bracketed
  obtain ⟨stem, -, ends⟩ := h.json
  have last : path.toList.getLast? = some ']' := by
    rw [bracketed, List.getLast?_concat]
  have closing := ends.getLast? (by simp) last
  rw [List.getLast?_append_cons] at closing
  revert closing
  decide

theorem trim_bracketed (between : List Char) :
    Text.trim ('[' :: between ++ [']']) = '[' :: between ++ [']'] := by
  refine Text.trim_eq_self ⟨fun c first => ?_, fun c last => ?_⟩
  · obtain rfl : '[' = c := by simpa using first
    decide
  · obtain rfl : ']' = c := by
      rw [List.getLast?_concat] at last
      exact Option.some.inj last
    decide

/-- The paths between the commas of a text. -/
def pathsIn (cs : List Char) : List (List Char) := filled (Text.pieces (· = ',') cs)

theorem inputPaths_plain (h : PlainPath path) : inputPaths path = pathsIn path.toList := by
  rw [inputPaths, Text.trim_eq_self h.trimmed, unbracket_eq_self h.not_bracketed]
  rfl

theorem inputPaths_bracketed (between : String) :
    inputPaths ("[" ++ between ++ "]") = pathsIn between.toList := by
  have letters : ("[" ++ between ++ "]").toList = '[' :: between.toList ++ [']'] := by simp
  rw [inputPaths, letters, trim_bracketed, unbracket_bracketed]
  rfl

theorem pathsIn_join (before after : List Char) :
    pathsIn (before ++ ',' :: after) = pathsIn before ++ pathsIn after := by
  rw [pathsIn, Text.pieces_join (decide_eq_true rfl), filled, List.map_append, List.filter_append]
  rfl

theorem pathsIn_of_noComma (noComma : ',' ∉ cs) :
    pathsIn cs = [Text.trim cs].filter (!·.isEmpty) := by
  have whole : Text.pieces (· = ',') cs = [cs] :=
    Text.pieces_of_forall_not fun c hc => decide_eq_false fun same => noComma (same ▸ hc)
  rw [pathsIn, whole, filled, List.map_singleton]

theorem comma_ne_of_isBlank {c : Char} (blank : isBlank c) : c ≠ ',' := by
  rintro rfl
  cases blank

theorem pathsIn_cons_blank {c : Char} (blank : isBlank c) (cs : List Char) :
    pathsIn (c :: cs) = pathsIn cs := by
  have other := comma_ne_of_isBlank blank
  rw [pathsIn, pathsIn, Text.pieces, if_neg (by simpa using other)]
  split
  · rename_i none
    exact absurd none (Text.pieces_ne_nil _ cs)
  · rename_i piece others some
    rw [some, filled, filled, List.map_cons, Text.trim_cons blank, List.map_cons]

theorem pathsIn_filler_append (filler : Filler front) (cs : List Char) :
    pathsIn (front ++ cs) = pathsIn cs := by
  induction front with
  | nil => rfl
  | cons c rest ih =>
      obtain ⟨first, others⟩ := List.forall_mem_cons.1 filler
      rcases first with blank | rfl
      · rw [List.cons_append, pathsIn_cons_blank blank, ih others]
      · have alone : pathsIn [] = [] := rfl
        have joined := pathsIn_join [] (rest ++ cs)
        rwa [alone, List.nil_append, List.nil_append, ih others] at joined

theorem pathsIn_append_filler (noComma : ',' ∉ cs) (filler : Filler back) :
    pathsIn (cs ++ back) = pathsIn cs := by
  induction back generalizing cs with
  | nil => rw [List.append_nil]
  | cons c rest ih =>
      obtain ⟨first, others⟩ := List.forall_mem_cons.1 filler
      have behind := pathsIn_filler_append others []
      rw [List.append_nil] at behind
      rcases first with blank | rfl
      · have longer : ',' ∉ cs ++ [c] := by simp [noComma, (comma_ne_of_isBlank blank).symm]
        rw [List.append_cons, ih longer others, pathsIn_of_noComma longer,
          Text.trim_concat blank, pathsIn_of_noComma noComma]
      · rw [pathsIn_join, behind]
        exact List.append_nil _

theorem PlainPath.pathsIn (h : PlainPath path) : pathsIn path.toList = [path.toList] := by
  rw [pathsIn_of_noComma h.noComma, Text.trim_eq_self h.trimmed]
  simp [h.ne_nil]

theorem inputPath_plain (h : PlainPath path) : inputPath path = .ok path :=
  inputPath_eq_ok.2 ⟨(inputPaths_plain h).trans h.pathsIn, h.json⟩

theorem inputPath_bracketed (h : PlainPath path) {front back : String}
    (before : Filler front.toList) (after : Filler back.toList) :
    inputPath ("[" ++ (front ++ path ++ back) ++ "]") = .ok path := by
  refine inputPath_eq_ok.2 ⟨?_, h.json⟩
  rw [inputPaths_bracketed, String.toList_append, String.toList_append, List.append_assoc,
    pathsIn_filler_append before, pathsIn_append_filler h.noComma after, h.pathsIn]

theorem Pads.noComma {member : String} (pads : Pads member path) (h : PlainPath path) :
    ',' ∉ member.toList := by
  obtain ⟨before, after, split, front, back⟩ := pads
  have visible : isBlank ',' = false := by decide
  rw [split]
  simp [Text.not_mem_of_blanks visible front, Text.not_mem_of_blanks visible back, h.noComma]

theorem Pads.not_blanks {member : String} (pads : Pads member path) (h : PlainPath path) :
    ¬ Blanks member.toList := by
  obtain ⟨before, after, split, front, back⟩ := pads
  rw [← Text.trim_eq_nil_iff, split, Text.trim_padded h.trimmed front back]
  exact h.ne_nil

theorem inputPath_several {members : List String} (several : 2 ≤ members.length)
    (plain : ∀ member ∈ members, ∃ path, PlainPath path ∧ Pads member path) :
    inputPath ("[" ++ ",".intercalate members ++ "]") = .error (.inputCount members.length) := by
  have parts : Members (",".intercalate members).toList (members.map String.toList) := by
    refine ⟨?_, List.forall_mem_map.2 fun member hmember => ?_, ?_⟩
    · rw [ne_eq, List.map_eq_nil_iff]
      rintro rfl
      cases several
    · obtain ⟨path, h, pads⟩ := plain member hmember
      exact pads.noComma h
    · rw [String.toList_intercalate]
      rfl
  have all : filledCount (members.map String.toList) = members.length := by
    rw [filledCount, List.countP_eq_length.2, List.length_map]
    refine List.forall_mem_map.2 fun member hmember => decide_eq_true ?_
    obtain ⟨path, h, pads⟩ := plain member hmember
    exact pads.not_blanks h
  have number : (inputPaths ("[" ++ ",".intercalate members ++ "]")).length = members.length := by
    rw [inputPaths_bracketed, pathsIn, members_iff.1 parts, length_filled, all]
  rw [inputPath_of_length (by omega), number]

end Plain

/-- An argument has one choice of members, with or without brackets. It is accepted when they name
one path and that is the path of a JSON document, and refused otherwise: for how many of them are
not blank, or for the extension if it is only that. A path without commas and without blanks at its
ends is therefore accepted by itself and in brackets, with any blanks and idle commas next to it,
and several such paths in brackets are refused for their number. -/
theorem inputPath_follows_grammar :
    (∀ argument, ∃ listed members,
      (∀ other, Lists (Text.trim argument.toList) other ↔ other = listed) ∧
      (∀ others, Members listed others ↔ others = members) ∧
      (∀ path, inputPath argument = .ok path ↔ NamesOnly members path ∧ IsJson path) ∧
      (∀ failure, inputPath argument = .error failure ↔
        (∃ path, NamesOnly members path ∧ ¬ IsJson path ∧ failure = .inputExtension path) ∨
        filledCount members ≠ 1 ∧ failure = .inputCount (filledCount members)) ∧
      ∀ failure, inputPath argument = .error failure →
        failure.kind = .input ∧ failure.exitCode = 1) ∧
    (∀ path, PlainPath path → inputPath path = .ok path ∧
      ∀ front back : String, Filler front.toList → Filler back.toList →
        inputPath ("[" ++ (front ++ path ++ back) ++ "]") = .ok path) ∧
    ∀ members : List String, 2 ≤ members.length →
      (∀ member ∈ members, ∃ path, PlainPath path ∧ Pads member path) →
        inputPath ("[" ++ ",".intercalate members ++ "]") =
          .error (.inputCount members.length) := by
  refine ⟨fun argument => ?_, fun path h => ⟨inputPath_plain h, fun _ _ => inputPath_bracketed h⟩,
    fun _ => inputPath_several⟩
  let listed := unbracket (Text.trim argument.toList)
  have lists : Lists (Text.trim argument.toList) listed := lists_iff.2 rfl
  have parts : Members listed (Text.pieces (· = ',') listed) := members_iff.2 rfl
  have found := inputPaths_eq lists parts
  have refused : ∀ failure, inputPath argument = .error failure ↔
      (∃ path, NamesOnly (Text.pieces (· = ',') listed) path ∧ ¬ IsJson path ∧
        failure = .inputExtension path) ∨
      filledCount (Text.pieces (· = ',') listed) ≠ 1 ∧
        failure = .inputCount (filledCount (Text.pieces (· = ',') listed)) := by
    intro failure
    simp only [inputPath_eq_error, found, filled_eq_singleton, length_filled]
  refine ⟨listed, Text.pieces (· = ',') listed, fun _ => lists_iff.trans eq_comm,
    fun _ => members_iff.trans eq_comm, fun path => ?_, refused, fun failure h => ?_⟩
  · rw [inputPath_eq_ok, found, filled_eq_singleton]
  · rcases (refused failure).1 h with ⟨_, -, -, rfl⟩ | ⟨-, rfl⟩
    · exact ⟨rfl, rfl⟩
    · exact ⟨rfl, rfl⟩

/-- A path with brackets in it and a slash and a dot behind its name, by itself and in brackets; two
paths with a blank next to each; and a name that is all extension. -/
theorem inputPath_follows_grammar_brackets :
    inputPath "[x] y].json/." = .ok "[x] y].json/." ∧
      inputPath ("[" ++ ("\t,," ++ "[x] y].json/." ++ "\u00a0,") ++ "]") = .ok "[x] y].json/." ∧
      inputPath ("[" ++ ",".intercalate [" a.json", "/b.c.json "] ++ "]") =
        .error (.inputCount 2) ∧
      ∃ members, NamesOnly members ".json" ∧ ¬ IsJson ".json" := by
  obtain ⟨grammar, alone, listed⟩ := inputPath_follows_grammar
  have bracketed : PlainPath "[x] y].json/." :=
    ⟨⟨"[x] y]".toList, by decide, [], "/.".toList, by decide, .inl rfl, by decide, [['.']],
      by decide, rfl⟩, by decide, by decide⟩
  have first : PlainPath "a.json" :=
    ⟨⟨['a'], by decide, [], [], by decide, .inl rfl, by decide, [], by decide, rfl⟩, by decide,
      by decide⟩
  have second : PlainPath "/b.c.json" :=
    ⟨⟨"b.c".toList, by decide, ['/'], [], by decide, .inr ⟨[], rfl⟩, by decide, [], by decide, rfl⟩,
      by decide, by decide⟩
  refine ⟨(alone _ bracketed).1, (alone _ bracketed).2 "\t,," "\u00a0," (by decide) (by decide),
    listed [" a.json", "/b.c.json "] (by decide) ?_, ?_⟩
  · refine List.forall_mem_cons.2 ⟨⟨_, first, [' '], [], by decide, by decide, by decide⟩, ?_⟩
    exact List.forall_mem_singleton.2 ⟨_, second, [], [' '], by decide, by decide, by decide⟩
  · obtain ⟨_, members, -, -, -, failures, -⟩ := grammar "[.json,]"
    have answer : inputPath "[.json,]" = .error (.inputExtension ".json") := by decide +kernel
    obtain ⟨path, named, other, same⟩ | ⟨-, same⟩ := (failures _).1 answer
    · cases same
      exact ⟨members, named, other⟩
    · cases same

end DesignTokens.Program
