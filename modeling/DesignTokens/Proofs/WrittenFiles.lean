import DesignTokens.FileTree
import DesignTokens.Proofs.Lookup
import DesignTokens.Proofs.Sequencing
import DesignTokens.Proofs.TakingApart

/-!
What writing a file changes. Whether it is written in place or made beside the old one, the text
ends up where its path leads and nowhere else, and what cannot be written leaves the tree as it was:
a name that nothing in the tree has can be used for a while without a trace.
-/
namespace DesignTokens.FileTree

/-- Where a file is, or where one may be put since a directory has nothing under the name. -/
def Spot.filePlace? : Spot → Option Location
  | .present place (.file ..) => some place
  | .absent directory name [] => some (directory ++ [name])
  | _ => none

/-- A path that names a file, which need not be there. -/
def NamesFile (t : FileTree) (path : String) (place : Location) : Prop :=
  ∃ spot, t.locate path = .ok spot ∧ spot.filePlace? = some place

instance (t : FileTree) (path : String) (place : Location) : Decidable (t.NamesFile path place) :=
  match h : t.locate path with
  | .ok spot => decidable_of_iff (spot.filePlace? = some place) (by simp [NamesFile, h])
  | .error _ => .isFalse (by simp [NamesFile, h])

/-- The mode is that of the file that is at `place`, and 0644 if nothing is there. -/
def KeepsMode (t : FileTree) (place : Location) (mode : Nat) : Prop :=
  (∀ content old, t.entry? place = some (.file content old) → mode = old) ∧
    (t.entry? place = none → mode = 0o644)

/-- Writing a text has put it at `place`, where the path leads, and has left all else alone. -/
structure Wrote (t u : FileTree) (path text : String) (place : Location) : Prop where
  here : u.here = t.here
  others : ∀ other, other ≠ place → u.entry? other = t.entry? other
  named : t.NamesFile path place
  found : ∃ mode, t.KeepsMode place mode ∧
    u.entry? place = some (.file (.text text) mode) ∧
    u.locate path = .ok (.present place (.file (.text text) mode))

variable {t u : FileTree}

section Modes
variable {path text : String} {place : Location} (h : t.Wrote u path text place)
include h

theorem Wrote.replaces {content : Content} {mode : Nat}
    (old : t.entry? place = some (.file content mode)) :
    u.entry? place = some (.file (.text text) mode) := by
  obtain ⟨_, ⟨kept, -⟩, written, -⟩ := h.found
  rwa [kept content mode old] at written

theorem Wrote.creates (missing : t.entry? place = none) :
    u.entry? place = some (.file (.text text) 0o644) := by
  obtain ⟨_, ⟨-, fresh⟩, written, -⟩ := h.found
  rwa [fresh missing] at written

end Modes

section Places

theorem entry?_of_ne_nil {place : Location} (h : place ≠ []) :
    t.entry? place = t.entries.find? place := by
  cases place with
  | nil => exact absurd rfl h
  | cons name rest => rfl

theorem entry?_child (directory : Location) (name : String) :
    t.entry? (directory ++ [name]) = t.entries.find? (directory ++ [name]) :=
  entry?_of_ne_nil (List.append_ne_nil_of_right_ne_nil directory (List.cons_ne_nil name []))

theorem entry?_of_walk_present {start place : Location} {names : List String} {entry : Entry}
    (h : t.walk start names = .ok (.present place entry)) : t.entry? place = some entry := by
  fun_induction walk t start names with
  | case1 start found here =>
      cases h
      exact here
  | case5 _ _ _ _ _ ih | case6 _ _ _ _ ih | case8 _ _ _ _ _ _ _ _ ih => exact ih h
  | _ => cases h

theorem entry?_of_walk_absent {start directory : Location} {names rest : List String}
    {name : String} (h : t.walk start names = .ok (.absent directory name rest)) :
    t.entry? (directory ++ [name]) = none ∧ t.entry? directory = some .directory := by
  fun_induction walk t start names with
  | case5 _ _ _ _ _ ih | case6 _ _ _ _ ih | case8 _ _ _ _ _ _ _ _ ih => exact ih h
  | case9 start name rest here _ _ _ lacking =>
      cases h
      exact ⟨by simpa using lacking, here⟩
  | _ => cases h

/-- A walk that leads to a directory can be carried on from there. -/
theorem walk_append {start directory : Location} {names : List String}
    (h : t.walk start names = .ok (.present directory .directory)) (more : List String) :
    t.walk start (names ++ more) = t.walk directory more := by
  fun_induction walk t start names with
  | case1 start found here =>
      cases h
      rfl
  | case5 start name rest here idle ih =>
      simp only [List.cons_append, walk, here]
      rw [if_pos idle, ih h]
  | case6 start rest here named ih =>
      simp only [List.cons_append, walk, here]
      rw [if_neg named, if_pos trivial, ih h]
  | case8 start name rest here named down short found ih =>
      simp only [List.cons_append, walk, here]
      rw [if_neg named, if_neg down, if_neg short, if_pos found, ih h]
  | _ => cases h

/-- Two trees that differ only at places with a certain name in them cannot be told apart by walks
that do not use the name. -/
theorem walk_congr {unused : String}
    (same : ∀ place, unused ∉ place → u.entry? place = t.entry? place) {start : Location}
    {names : List String} (clear : unused ∉ start) (free : unused ∉ names) :
    u.walk start names = t.walk start names := by
  induction names generalizing start with
  | nil => simp only [walk, same start clear]
  | cons name rest ih =>
      obtain ⟨other, free⟩ := List.ne_and_not_mem_of_not_mem_cons free
      have up : unused ∉ start.dropLast := fun h => clear (List.dropLast_subset start h)
      have down : unused ∉ start ++ [name] := by
        simpa [List.mem_append, clear] using other
      simp only [walk, same start clear, same _ down, ih clear free, ih up free, ih down free]

theorem locateDirectory_eq_ok {start directory : Location} {names : List String} :
    t.locateDirectory start names = .ok directory ↔
      t.walk start names = .ok (.present directory .directory) := by
  unfold locateDirectory
  cases walked : t.walk start names with
  | error refusal => exact iff_of_false (fun h => nomatch h) (fun h => nomatch h)
  | ok spot =>
      rcases spot with ⟨place, _ | _⟩ | ⟨_, _, _⟩
      · exact ⟨fun h => by cases h; rfl, fun h => by cases h; rfl⟩
      · exact iff_of_false (fun h => nomatch h) (fun h => nomatch h)
      · exact iff_of_false (fun h => nomatch h) (fun h => nomatch h)

theorem walk_child {directory : Location} {name : String}
    (here : t.entry? directory = some .directory) (named : name ≠ "" ∧ name ≠ "." ∧ name ≠ "..")
    (short : ¬ maxNameSize < name.utf8ByteSize)
    (free : t.entry? (directory ++ [name]) ≠ some .directory) :
    ∃ spot, t.walk directory [name] = .ok spot ∧
      spot.filePlace? = some (directory ++ [name]) := by
  obtain ⟨notEmpty, notDot, notUp⟩ := named
  cases found : t.entry? (directory ++ [name]) with
  | none =>
      refine ⟨.absent directory name [], ?_, rfl⟩
      simp [walk, here, notEmpty, notDot, notUp, short, found]
  | some entry =>
      cases entry with
      | directory => exact absurd found free
      | file content mode =>
          refine ⟨.present (directory ++ [name]) (.file content mode), ?_, rfl⟩
          simp [walk, here, notEmpty, notDot, notUp, short, found]

/-- A file is only ever moved to where a file is or nothing. -/
theorem walk_of_target {start place : Location} {names : List String}
    (h : t.target start names = .ok place) :
    ∃ spot, t.walk start names = .ok spot ∧ spot.filePlace? = some place := by
  unfold target at h
  generalize kept_eq : (names.reverse.dropWhile (· = "")).reverse = kept at h
  obtain ⟨directory, located, moved⟩ := bind_eq_ok.1 h
  have walked := locateDirectory_eq_ok.1 located
  cases last : kept.getLast? with
  | none =>
      simp only [last] at moved
      cases moved
  | some name =>
      simp only [last, unless_eq_ok] at moved
      obtain ⟨notDots, short, whole, moved⟩ := moved
      have notEmpty : name ≠ "" := by
        rw [← kept_eq, List.getLast?_reverse] at last
        simpa [last] using List.head?_dropWhile_not (fun n => decide (n = "")) names.reverse
      have named : name ≠ "" ∧ name ≠ "." ∧ name ≠ ".." := ⟨notEmpty, by simpa using notDots⟩
      have suffix : kept.reverse <:+ names.reverse := by
        rw [← kept_eq, List.reverse_reverse]
        exact List.dropWhile_suffix _
      have all : kept = names := by
        refine List.reverse_injective (suffix.eq_of_length_le ?_)
        simpa using Nat.not_lt.1 whole
      obtain ⟨front, parts⟩ := List.getLast?_eq_some_iff.1 last
      rw [parts, List.dropLast_concat] at walked
      rw [← all, parts, walk_append walked]
      have here := entry?_of_walk_present walked
      have free : t.entry? (directory ++ [name]) ≠ some .directory := by
        intro taken
        rw [taken] at moved
        cases moved
      obtain rfl : directory ++ [name] = place := by
        split at moved
        · exact absurd ‹_› free
        · exact Except.ok.inj moved
      exact walk_child here named short free

theorem not_directory_of_walk {start place : Location} {names : List String} {spot : Spot}
    (h : t.walk start names = .ok spot) (leads : spot.filePlace? = some place) :
    t.entry? place ≠ some .directory := by
  intro taken
  cases spot with
  | present other entry =>
      cases entry with
      | directory => cases leads
      | file =>
          cases leads
          rw [entry?_of_walk_present h] at taken
          cases taken
  | absent directory name rest =>
      cases rest with
      | nil =>
          cases leads
          rw [(entry?_of_walk_absent h).1] at taken
          cases taken
      | cons => cases leads

/-- Once a file is where a path leads, the path leads to it. -/
theorem walk_of_written {place : Location} {content : Content} {mode : Nat}
    (others : ∀ other, other ≠ place → u.entry? other = t.entry? other)
    (written : u.entry? place = some (.file content mode)) {start : Location}
    {names : List String} {spot : Spot} (h : t.walk start names = .ok spot)
    (leads : spot.filePlace? = some place) :
    u.walk start names = .ok (.present place (.file content mode)) := by
  have notDirectory := not_directory_of_walk h leads
  have stays : ∀ directory, t.entry? directory = some .directory →
      u.entry? directory = some .directory := by
    intro directory here
    rw [others directory fun same => notDirectory (same ▸ here), here]
  have remains : ∀ other, (t.entry? other).isSome → (u.entry? other).isSome := by
    intro other found
    by_cases same : other = place
    · rw [same, written]
      rfl
    · rwa [others other same]
  fun_induction walk t start names with
  | case1 start entry here =>
      cases h
      cases entry with
      | directory => cases leads
      | file =>
          cases leads
          simp only [walk, written]
  | case5 start name rest here idle ih =>
      simp only [walk, stays start here]
      rw [if_pos idle, ih h]
  | case6 start rest here named ih =>
      simp only [walk, stays start here]
      rw [if_neg named, if_pos trivial, ih h]
  | case8 start name rest here named down short found ih =>
      simp only [walk, stays start here]
      rw [if_neg named, if_neg down, if_neg short, if_pos (remains _ found), ih h]
  | case9 start name rest here named down short lacking =>
      cases h
      cases rest with
      | nil =>
          cases leads
          simp only [walk, stays start here, written]
          rw [if_neg named, if_neg down, if_neg short, Option.isSome_some, if_pos rfl]
      | cons => cases leads
  | _ => cases h

end Places

section Steps

theorem NamesFile.not_directory {path : String} {place : Location} (h : t.NamesFile path place) :
    t.entry? place ≠ some .directory := by
  obtain ⟨spot, located, leads⟩ := h
  obtain ⟨⟨start, names⟩, -, walked⟩ := bind_eq_ok.1 located
  exact not_directory_of_walk walked leads

theorem NamesFile.ne_nil {path : String} {place : Location} (h : t.NamesFile path place) :
    place ≠ [] := by
  rintro rfl
  exact h.not_directory rfl

/-- What is asked of the path before the file is written is true of the file at its place. -/
theorem NamesFile.keepsMode_modeFor {path : String} {place : Location}
    (h : t.NamesFile path place) : t.KeepsMode place (t.modeFor path) := by
  obtain ⟨spot, located, leads⟩ := h
  obtain ⟨⟨start, names⟩, -, walked⟩ := bind_eq_ok.1 located
  unfold modeFor
  rw [located]
  cases spot with
  | present other entry =>
      have there := entry?_of_walk_present walked
      cases entry with
      | directory => cases leads
      | file content mode =>
          cases leads
          constructor
          · intro _ old found
            cases there.symm.trans found
            rfl
          · intro missing
            cases there.symm.trans missing
  | absent directory name rest =>
      cases rest with
      | cons => cases leads
      | nil =>
          cases leads
          have missing := (entry?_of_walk_absent walked).1
          constructor
          · intro _ old found
            cases missing.symm.trans found
          · exact fun _ => rfl

theorem NamesFile.unique {path : String} {place other : Location} (h : t.NamesFile path place)
    (h' : t.NamesFile path other) : place = other := by
  obtain ⟨spot, located, leads⟩ := h
  obtain ⟨_, located', leads'⟩ := h'
  cases located.symm.trans located'
  exact Option.some.inj (leads.symm.trans leads')

theorem NamesFile.entry?_eq_none {path : String} {place : Location} (h : t.NamesFile path place)
    (free : t.isPresent path = false) : t.entry? place = none := by
  obtain ⟨spot, located, leads⟩ := h
  unfold isPresent at free
  rw [located] at free
  cases spot with
  | present => cases free
  | absent directory name rest =>
      obtain ⟨⟨start, names⟩, -, walked⟩ := bind_eq_ok.1 located
      cases rest with
      | nil =>
          cases leads
          exact (entry?_of_walk_absent walked).1
      | cons => cases leads

theorem entry?_insertText {place : Location} (h : place ≠ []) (text : String) (mode : Nat)
    (other : Location) :
    entry? (t.insertText place text mode) other =
      if other = place then some (.file (.text text) mode) else t.entry? other := by
  cases other with
  | nil =>
      rw [if_neg h.symm]
      rfl
  | cons name rest => exact Table.find?_insert _ _ _ _

/-- The tree that holds a text where a path leads, and is the same elsewhere. -/
theorem wrote_of_entries {path text : String} {place : Location} (here : u.here = t.here)
    (named : t.NamesFile path place)
    (entries : ∀ other, u.entry? other =
      if other = place then some (.file (.text text) (t.modeFor path)) else t.entry? other) :
    t.Wrote u path text place where
  here := here
  others other h := by rw [entries, if_neg h]
  named := named
  found := by
    have written : u.entry? place = some (.file (.text text) (t.modeFor path)) := by
      rw [entries, if_pos rfl]
    refine ⟨_, named.keepsMode_modeFor, written, ?_⟩
    obtain ⟨spot, located, leads⟩ := named
    obtain ⟨⟨start, names⟩, started, walked⟩ := bind_eq_ok.1 located
    have started' : u.start path = .ok (start, names) := by
      rw [← started]
      simp only [FileTree.start, here]
    refine bind_eq_ok.2 ⟨(start, names), started', ?_⟩
    exact walk_of_written (fun other h => by rw [entries, if_neg h]) written walked leads

theorem wrote_of_writeText {path text : String} (h : t.writeText path text = .ok u) :
    ∃ place, t.Wrote u path text place := by
  have inserted : ∀ {spot : Spot} {place : Location}, t.locate path = .ok spot →
      spot.filePlace? = some place → u = t.insertText place text (t.modeFor path) →
      ∃ place, t.Wrote u path text place := by
    rintro spot place located leads rfl
    have named : t.NamesFile path place := ⟨spot, located, leads⟩
    exact ⟨place, wrote_of_entries rfl named (entry?_insertText named.ne_nil text _)⟩
  obtain ⟨spot, located, h⟩ := bind_eq_ok.1 h
  cases spot with
  | present place entry =>
      cases entry with
      | directory => cases h
      | file content mode =>
          simp only at h
          split at h
          · cases h
            refine inserted located rfl ?_
            simp only [modeFor, located]
          · cases h
  | absent directory name rest =>
      cases rest with
      | cons => cases directory <;> cases h
      | nil =>
          cases directory with
          | nil => cases h
          | cons first more =>
              cases h
              refine inserted located rfl ?_
              simp only [modeFor, located]

end Steps

section Drafts

/-- A name that is neither in the tree nor in the path. -/
structure Unused (t : FileTree) (path name : String) : Prop where
  inTree : ∀ place ∈ t.entries.keys, name ∉ place
  inPath : ∀ start names, t.start path = .ok (start, names) → name ∉ start ∧ name ∉ names

variable {path draft text : String}

theorem Unused.entry?_eq_none (h : t.Unused path draft) (directory : Location) :
    t.entry? (directory ++ [draft]) = none := by
  rw [entry?_child, ← Option.isNone_iff_eq_none, Table.isNone_find?_iff]
  intro taken
  exact h.inTree _ taken (List.mem_append_right directory (List.mem_singleton_self draft))

/-- A new file that is removed again leaves no trace. -/
theorem remove_insertText {place : Location} (free : t.entries.find? place = none)
    (mode : Nat) : (t.insertText place text mode).remove place = t := by
  have same : (t.entries.insert place (.file (.text text) mode)).erase place = t.entries := by
    refine Table.eq_of_find?_eq fun other => ?_
    rw [Table.find?_erase, Table.find?_insert]
    split
    · rename_i h
      rw [h, free]
    · rfl
  exact congrArg (FileTree.mk · t.here) same

theorem draftPlace_eq_ok {source : Location} (h : t.draftPlace path draft = .ok source) :
    ∃ directory, source = directory ++ [draft] := by
  obtain ⟨⟨start, names⟩, -, h⟩ := bind_eq_ok.1 h
  obtain ⟨-, h⟩ := unless_eq_ok.1 h
  obtain ⟨directory, -, h⟩ := bind_eq_ok.1 h
  obtain ⟨-, h⟩ := unless_eq_ok.1 h
  exact ⟨directory, (Except.ok.inj h).symm⟩

/-- A file that cannot be replaced stays, and nothing stays beside it. -/
theorem replaceText_of_error (unused : t.Unused path draft) {refusal : Refusal}
    (h : (t.replaceText draft path text).1 = .error refusal) :
    (t.replaceText draft path text).2 = t := by
  unfold replaceText at h ⊢
  cases made : t.draftPlace path draft with
  | error => rfl
  | ok source =>
      obtain ⟨directory, rfl⟩ := draftPlace_eq_ok made
      have free := unused.entry?_eq_none directory
      rw [entry?_child] at free
      simp only [made] at h ⊢
      cases moved : (t.insertText (directory ++ [draft]) text (t.modeFor path)).rename
          (directory ++ [draft]) path with
      | ok renamed =>
          rw [moved] at h
          cases h
      | error => exact remove_insertText free _

theorem wrote_of_replaceText (unused : t.Unused path draft)
    (h : (t.replaceText draft path text).1 = .ok ()) :
    ∃ place, t.Wrote (t.replaceText draft path text).2 path text place := by
  unfold replaceText at h ⊢
  cases made : t.draftPlace path draft with
  | error refusal =>
      rw [made] at h
      cases h
  | ok source =>
      obtain ⟨directory, rfl⟩ := draftPlace_eq_ok made
      have free := unused.entry?_eq_none directory
      have drafted : ∀ other,
          entry? (t.insertText (directory ++ [draft]) text (t.modeFor path)) other =
            if other = directory ++ [draft] then some (.file (.text text) (t.modeFor path))
            else t.entry? other :=
        entry?_insertText (List.append_ne_nil_of_right_ne_nil directory (by simp)) text _
      simp only [made] at h ⊢
      cases moved : (t.insertText (directory ++ [draft]) text (t.modeFor path)).rename
          (directory ++ [draft]) path with
      | error refusal =>
          rw [moved] at h
          cases h
      | ok renamed =>
          obtain ⟨-, moved⟩ := unless_eq_ok.1 moved
          obtain ⟨⟨start, names⟩, started, moved⟩ := bind_eq_ok.1 moved
          obtain ⟨place, targeted, moved⟩ := bind_eq_ok.1 moved
          obtain ⟨spot, walked, leads⟩ := walk_of_target targeted
          have named : t.NamesFile path place := by
            obtain ⟨clear, outside⟩ := unused.inPath start names started
            refine ⟨spot, bind_eq_ok.2 ⟨(start, names), started, ?_⟩, leads⟩
            rw [← walked]
            refine (walk_congr (fun other without => ?_) clear outside).symm
            rw [drafted, if_neg]
            rintro rfl
            exact without (List.mem_append_right directory (List.mem_singleton_self draft))
          rw [drafted, if_pos rfl] at moved
          cases moved
          refine ⟨place, wrote_of_entries rfl named fun other => ?_⟩
          cases other with
          | nil =>
              rw [if_neg named.ne_nil.symm]
              rfl
          | cons first more =>
              change Table.find? _ _ = if _ then _ else t.entries.find? _
              rw [Table.find?_insert, remove, Table.find?_erase, insertText, Table.find?_insert]
              split
              · rfl
              · split
                · rename_i gone
                  rw [gone, ← entry?_child, free]
                · rfl

theorem start_eq_ok {start : Location} {names : List String}
    (h : t.start path = .ok (start, names)) :
    (start = [] ∨ start = t.here) ∧
      names = (Text.pieces (· = '/') path.toList).map String.ofList := by
  obtain ⟨-, h⟩ := unless_eq_ok.1 h
  obtain ⟨-, h⟩ := unless_eq_ok.1 h
  obtain ⟨-, h⟩ := unless_eq_ok.1 h
  obtain ⟨rfl, rfl⟩ := Prod.mk.inj (Except.ok.inj h)
  refine ⟨?_, rfl⟩
  split
  · exact Or.inl rfl
  · exact Or.inr rfl

theorem length_le_foldr_max {name : String} {names : List String} (h : name ∈ names) :
    name.length ≤ names.foldr (max ·.length) 0 := by
  induction names with
  | nil => cases h
  | cons other rest ih =>
      rcases List.mem_cons.1 h with rfl | h
      · exact Nat.le_max_left _ _
      · exact Nat.le_trans (ih h) (Nat.le_max_right _ _)

theorem unused_unusedName (t : FileTree) (path : String) : t.Unused path (t.unusedName path) := by
  have longer : ∀ name ∈ path :: t.here ++ t.entries.keys.flatten,
      name.length < (t.unusedName path).length := by
    intro name hname
    simp only [unusedName, String.length_ofList, List.length_replicate]
    exact Nat.lt_succ_of_le (length_le_foldr_max hname)
  constructor
  · intro place hplace hname
    refine absurd (longer _ ?_) (Nat.lt_irrefl _)
    exact List.mem_cons_of_mem path
      (List.mem_append_right t.here (List.mem_flatten.2 ⟨place, hplace, hname⟩))
  · intro start names h
    obtain ⟨begins, rfl⟩ := start_eq_ok h
    constructor
    · rcases begins with rfl | rfl
      · exact List.not_mem_nil
      · intro hname
        exact absurd (longer _ (List.mem_cons_of_mem path (List.mem_append_left _ hname)))
          (Nat.lt_irrefl _)
    · intro hname
      obtain ⟨piece, hpiece, same⟩ := List.mem_map.1 hname
      have short := Text.length_le_of_mem_pieces hpiece
      have long := longer path List.mem_cons_self
      rw [← same, String.length_ofList] at long
      rw [← String.length_toList] at long
      exact absurd short (Nat.not_le.2 long)

end Drafts

end DesignTokens.FileTree
