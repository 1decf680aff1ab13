import DesignTokens.Path
import DesignTokens.Proofs.TakingApart
import Mathlib.Data.List.DropRight

/-!
File names and their extensions. The file name of a path is the last of its names that says
something, so slashes and single dots may follow it; its extension stands behind the last of its
dots, unless nothing stands in front of that.
-/
namespace DesignTokens.Path
variable {path name : List Char} {names : List (List Char)}

/-- What may follow the last name of a path without being noticed. -/
def IdleEnd (cs : List Char) : Prop :=
  ∃ names : List (List Char), (∀ name ∈ names, isIdle name) ∧ cs = names.flatMap ('/' :: ·)

/-- In front of the name stands a slash or nothing at all. -/
def EndsIn (path name : List Char) : Prop :=
  ∃ front idle, path = front ++ name ++ idle ∧
    (front = [] ∨ ∃ directory, front = directory ++ ['/']) ∧ '/' ∉ name ∧ IdleEnd idle

/-! Names in a list. -/

/-- Of the names of a list the last that says something. -/
def LastTelling (names : List (List Char)) (name : List Char) : Prop :=
  ∃ before after, names = before ++ name :: after ∧ isIdle name = false ∧
    ∀ idle ∈ after, isIdle idle

theorem getLast?_dropIdleEnd :
    (dropIdleEnd names).getLast? = some name ↔ LastTelling names name := by
  change (names.rdropWhile isIdle).getLast? = some name ↔ _
  constructor
  · intro last
    have nonempty : names.rdropWhile isIdle ≠ [] := by
      intro empty
      rw [empty] at last
      cases last
    obtain rfl : (names.rdropWhile isIdle).getLast nonempty = name := by
      rw [List.getLast?_eq_some_getLast nonempty] at last
      exact Option.some.inj last
    refine ⟨(names.rdropWhile isIdle).dropLast, names.rtakeWhile isIdle, ?_, ?_,
      fun _ => List.mem_rtakeWhile_imp⟩
    · rw [List.append_cons, List.dropLast_append_getLast, List.rdropWhile_append_rtakeWhile]
    · simpa using List.rdropWhile_last_not isIdle names nonempty
  · rintro ⟨before, after, rfl, telling, idle⟩
    have dropped : (before ++ name :: after).rdropWhile isIdle = before ++ [name] := by
      rw [List.append_cons, List.rdropWhile, List.reverse_append,
        List.dropWhile_append_of_pos (by simpa using idle), ← List.rdropWhile,
        List.rdropWhile_concat_neg _ _ _ (by simp [telling])]
    rw [dropped, List.getLast?_concat]

theorem lastTelling_cons {idle : List Char} (h : isIdle idle) :
    LastTelling (idle :: names) name ↔ LastTelling names name := by
  constructor
  · rintro ⟨before, after, split, telling, behind⟩
    cases before with
    | nil =>
        obtain ⟨rfl, -⟩ := List.cons.inj split
        rw [h] at telling
        cases telling
    | cons first before => exact ⟨before, after, (List.cons.inj split).2, telling, behind⟩
  · rintro ⟨before, after, rfl, telling, behind⟩
    exact ⟨idle :: before, after, rfl, telling, behind⟩

/-- The beginning of a path says nothing as a name. -/
theorem lastTelling_split (path : List Char) :
    LastTelling (split path).2 name ↔ LastTelling (Text.pieces (· = '/') path) name := by
  unfold split
  split
  · rename_i rest
    rw [Text.pieces, if_pos (decide_eq_true rfl), lastTelling_cons (by decide)]
  · split
    · rename_i names here
      rw [here, lastTelling_cons (by decide)]
    · rfl

theorem lastTelling_pieces :
    LastTelling (Text.pieces (· = '/') path) name ↔ EndsIn path name ∧ isIdle name = false := by
  constructor
  · rintro ⟨before, after, split, telling, behind⟩
    obtain ⟨-, plain, rfl⟩ := Text.pieces_eq_iff.1 split
    have slashless : '/' ∉ name := plain name (by simp)
    refine ⟨?_, telling⟩
    cases before with
    | nil =>
        refine ⟨[], after.flatMap ('/' :: ·), ?_, .inl rfl, slashless, after, behind, rfl⟩
        rw [List.nil_append, Text.intercalate_cons, List.nil_append]
    | cons first before =>
        refine ⟨(first ++ before.flatMap ('/' :: ·)) ++ ['/'], after.flatMap ('/' :: ·), ?_,
          .inr ⟨_, rfl⟩, slashless, after, behind, rfl⟩
        rw [List.cons_append, Text.intercalate_cons]
        simp
  · rintro ⟨⟨front, idle, rfl, leads, slashless, after, behind, rfl⟩, telling⟩
    have plain : ∀ part ∈ name :: after, '/' ∉ part := by
      refine List.forall_mem_cons.2 ⟨slashless, fun part hpart => ?_⟩
      have idle := behind part hpart
      simp only [isIdle, Bool.or_eq_true, decide_eq_true_eq] at idle
      rcases idle with rfl | rfl <;> decide
    have parts : Text.pieces (· = '/') (name ++ after.flatMap ('/' :: ·)) = name :: after :=
      Text.pieces_eq_iff.2 ⟨List.cons_ne_nil _ _, plain, Text.intercalate_cons _ _ _⟩
    rw [List.append_assoc]
    rcases leads with rfl | ⟨directory, rfl⟩
    · exact ⟨[], after, parts, telling, behind⟩
    · refine ⟨Text.pieces (· = '/') directory, after, ?_, telling, behind⟩
      rw [List.append_assoc, List.singleton_append, Text.pieces_join (decide_eq_true rfl), parts]

theorem fileName?_eq_some :
    fileName? path = some name ↔ EndsIn path name ∧ isIdle name = false ∧ name ≠ ['.', '.'] := by
  rw [← and_assoc, ← lastTelling_pieces, ← lastTelling_split, ← getLast?_dropIdleEnd]
  unfold fileName?
  split
  · rename_i found here
    simp only [here, Option.ite_none_left_eq_some, Option.some.injEq]
    constructor
    · rintro ⟨below, rfl⟩
      exact ⟨rfl, below⟩
    · rintro ⟨rfl, below⟩
      exact ⟨below, rfl⟩
  · rename_i none
    simp [none]

/-! Extensions. -/

theorem extension?_eq_some {extension : List Char} :
    extension? path = some extension ↔
      ∃ stem, stem ≠ [] ∧ EndsIn path (stem ++ '.' :: extension) ∧ '.' ∉ extension ∧
        stem ++ '.' :: extension ≠ ['.', '.'] := by
  have behindStem : extension? path = some extension ↔
      ∃ stem, stem ≠ [] ∧ (fileName? path).bind (Text.splitLast '.') = some (stem, extension) := by
    unfold extension?
    cases (fileName? path).bind (Text.splitLast '.') with
    | none => simp
    | some parts =>
        obtain ⟨stem, last⟩ := parts
        cases stem <;> simp
  simp only [behindStem, Option.bind_eq_some_iff, fileName?_eq_some, Text.splitLast_iff]
  refine exists_congr fun stem => and_congr_right fun present => ?_
  constructor
  · rintro ⟨name, ⟨ends, -, below⟩, rfl, dotless⟩
    exact ⟨ends, dotless, below⟩
  · rintro ⟨ends, dotless, below⟩
    obtain ⟨c, rest, rfl⟩ := List.exists_cons_of_ne_nil present
    exact ⟨_, ⟨ends, by simp [isIdle], below⟩, rfl, dotless⟩

/-- A path has an extension without dots when its file name has something in front of it. -/
theorem hasExtension_iff {path extension : String} (present : extension ≠ "")
    (dotless : '.' ∉ extension.toList) :
    hasExtension path extension ↔
      ∃ stem, stem ≠ [] ∧ EndsIn path.toList (stem ++ '.' :: extension.toList) := by
  rw [hasExtension, beq_iff_eq, extension?_eq_some]
  refine exists_congr fun stem => and_congr_right fun filled => and_iff_left_of_imp fun _ => ?_
  refine ⟨dotless, fun above => present ?_⟩
  have lengths := congrArg List.length above
  have positive := List.length_pos_iff.2 filled
  simp only [List.length_append, List.length_cons, List.length_nil] at lengths
  exact String.toList_eq_nil_iff.1 (List.length_eq_zero_iff.1 (by omega))

/-- The last character of a path is that of its file name unless it is a slash or a dot. -/
theorem EndsIn.getLast? {c : Char} (h : EndsIn path name) (filled : name ≠ [])
    (last : path.getLast? = some c) : name.getLast? = some c ∨ c = '/' ∨ c = '.' := by
  obtain ⟨front, _, rfl, -, -, names, idle, rfl⟩ := h
  induction names using List.reverseRecOn with
  | nil =>
      rw [List.flatMap_nil, List.append_nil, List.getLast?_append_of_ne_nil _ filled] at last
      exact .inl last
  | append_singleton init final _ =>
      have idle := idle final (by simp)
      simp only [isIdle, Bool.or_eq_true, decide_eq_true_eq] at idle
      rcases idle with rfl | rfl
      · exact .inr (.inl (by simpa using last.symm))
      · exact .inr (.inr (by simpa using last.symm))

end DesignTokens.Path
