import DesignTokens.Proofs.CommandRuns
import DesignTokens.Proofs.FileExtensions
import DesignTokens.Proofs.Rendering

/-!
What commands do to files. A command that fails leaves all of them as they were, and so does a
check; a build changes its output and nothing else, and `init` the configuration in the directory it
is given. Over a session the files that no successful command has written stay what they were.
-/
namespace DesignTokens

namespace FileTree

variable {t : FileTree}

section Members

/-- The directory a text names; without a text it is the present one. -/
def NamesDirectory (t : FileTree) (directory : String) (place : Location) : Prop :=
  t.locate (if directory.isEmpty then "." else directory) = .ok (.present place .directory)

/-- A name that is taken for itself. -/
structure PlainName (name : String) : Prop where
  noSlash : '/' ∉ name.toList
  notEmpty : name ≠ ""
  notDot : name ≠ "."
  notUp : name ≠ ".."

/-- A path to a file leads through the directory the file is in. -/
theorem walk_concat {start place : Location} {front : List String} {name : String} {spot : Spot}
    (h : t.walk start (front ++ [name]) = .ok spot) (leads : spot.filePlace? = some place) :
    ∃ directory, t.walk start front = .ok (.present directory .directory) ∧
      t.walk directory [name] = .ok spot := by
  induction front generalizing start with
  | nil =>
      cases here : t.entry? start with
      | none => simp [walk, here] at h
      | some entry =>
          cases entry with
          | directory => exact ⟨start, by simp only [walk, here], h⟩
          | file => simp [walk, here] at h
  | cons first rest ih =>
      rw [List.cons_append, walk] at h
      rw [walk]
      cases here : t.entry? start with
      | none => simp [here] at h
      | some entry =>
          cases entry with
          | file => simp [here] at h
          | directory =>
              simp only [here] at h ⊢
              split at h
              · rename_i idle
                rw [if_pos idle]
                exact ih h
              split at h
              · rename_i named up
                rw [if_neg named, if_pos up]
                exact ih h
              split at h
              · cases h
              split at h
              · rename_i named down short found
                rw [if_neg named, if_neg down, if_neg short, if_pos found]
                exact ih h
              · cases h
                cases rest <;> cases leads

theorem place_of_walk_name {directory place : Location} {name : String} {spot : Spot}
    (plain : PlainName name) (h : t.walk directory [name] = .ok spot)
    (leads : spot.filePlace? = some place) : place = directory ++ [name] := by
  cases here : t.entry? directory with
  | none => simp [walk, here] at h
  | some entry =>
      cases entry with
      | file => simp [walk, here] at h
      | directory =>
          simp only [walk, here, plain.notEmpty, plain.notDot, plain.notUp, decide_false,
            Bool.or_self, Bool.false_eq_true, if_false] at h
          split at h
          · cases h
          split at h
          · split at h
            · rename_i entry found
              cases h
              cases entry <;> cases leads
              rfl
            · cases h
          · cases h
            cases leads
            rfl

/-- A path begins where what it begins with does. -/
theorem start_of_append {path more : String} {start : Location} {names : List String}
    (notEmpty : path ≠ "") (h : t.start (path ++ more) = .ok (start, names)) :
    t.start path = .ok (start, (Text.pieces (· = '/') path.toList).map String.ofList) := by
  unfold FileTree.start at h ⊢
  obtain ⟨-, h⟩ := unless_eq_ok.1 h
  obtain ⟨noNull, h⟩ := unless_eq_ok.1 h
  obtain ⟨short, h⟩ := unless_eq_ok.1 h
  rw [String.toList_append, List.contains_append] at noNull
  rw [String.utf8ByteSize_append] at short
  obtain ⟨rfl, -⟩ := Prod.mk.inj (Except.ok.inj h)
  have same : Path.isAbsolute (path ++ more) = Path.isAbsolute path := by
    have first : path.toList ≠ [] := fun none => notEmpty (String.toList_eq_nil_iff.1 none)
    rw [Path.isAbsolute, Path.isAbsolute, String.toList_append, List.head?_append_of_ne_nil _ first]
  rw [if_neg (by simpa using notEmpty), if_neg (by simp_all), if_neg (by omega), same]

theorem start_join {directory name : String} {start : Location} {names : List String}
    (plain : PlainName name) (h : t.start (Path.join directory name) = .ok (start, names)) :
    ∃ front, names = front ++ [name] ∧
      ∀ parent, t.walk start front = .ok (.present parent .directory) →
        t.NamesDirectory directory parent := by
  have single : Text.pieces (· = '/') name.toList = [name.toList] := by
    refine Text.pieces_of_forall_not fun c hc => ?_
    rw [decide_eq_false_iff_not]
    rintro rfl
    exact plain.noSlash hc
  obtain ⟨-, names_eq⟩ := start_eq_ok h
  by_cases empty : directory = ""
  · subst empty
    have joined : Path.join "" name = name := String.empty_append
    rw [joined, single] at names_eq
    rw [joined] at h
    refine ⟨[], by simpa using names_eq, fun parent found => ?_⟩
    have relative : Path.isAbsolute name = false := by
      rw [Path.isAbsolute, decide_eq_false_iff_not]
      exact fun first => plain.noSlash (List.mem_of_mem_head? first)
    obtain rfl : start = t.here := by
      unfold FileTree.start at h
      obtain ⟨-, h⟩ := unless_eq_ok.1 h
      obtain ⟨-, h⟩ := unless_eq_ok.1 h
      obtain ⟨-, h⟩ := unless_eq_ok.1 h
      rw [relative] at h
      exact (congrArg Prod.fst (Except.ok.inj h)).symm
    have dot : t.start "." = .ok (t.here, ["."]) := rfl
    refine bind_eq_ok.2 ⟨_, dot, ?_⟩
    cases here : t.entry? t.here with
    | none => simp [walk, here] at found
    | some entry =>
        rw [walk, here] at found
        cases found
        simp [walk, here]
  · have toDirectory : ∀ {more : String} {parent : Location},
        t.start (directory ++ more) = .ok (start, names) →
        t.walk start ((Text.pieces (· = '/') directory.toList).map String.ofList) =
          .ok (.present parent .directory) → t.NamesDirectory directory parent := by
      intro more parent h found
      have notEmpty : ¬ directory.isEmpty := by simpa using empty
      rw [NamesDirectory, if_neg notEmpty]
      exact bind_eq_ok.2 ⟨_, start_of_append empty h, found⟩
    by_cases last : directory.toList.getLast? = some '/'
    · obtain ⟨body, parts⟩ := List.getLast?_eq_some_iff.1 last
      have joined : Path.join directory name = directory ++ name := by
        simp [Path.join, last]
      rw [joined, String.toList_append, parts, List.append_assoc, List.singleton_append,
        Text.pieces_join (by simp), single] at names_eq
      rw [joined] at h
      refine ⟨(Text.pieces (· = '/') body).map String.ofList, by simpa using names_eq,
        fun parent found => toDirectory h ?_⟩
      rw [parts, Text.pieces_join (by simp), List.map_append, walk_append found]
      have here := entry?_of_walk_present found
      simp [Text.pieces, walk, here]
    · have joined : Path.join directory name = directory ++ ("/" ++ name) := by
        simp [Path.join, last, empty, String.append_assoc]
      rw [joined, String.toList_append, String.toList_append] at names_eq
      rw [joined] at h
      change names = (Text.pieces _ (directory.toList ++ '/' :: name.toList)).map String.ofList
        at names_eq
      rw [Text.pieces_join (by simp), single] at names_eq
      exact ⟨_, by simpa using names_eq, fun parent found => toDirectory h found⟩

/-- The file with a plain name in a directory is a member of it. -/
theorem parent_of_join {directory name : String} {place : Location} (plain : PlainName name)
    (h : t.NamesFile (Path.join directory name) place) :
    ∃ parent, t.NamesDirectory directory parent ∧ place = parent ++ [name] := by
  obtain ⟨spot, located, leads⟩ := h
  obtain ⟨⟨start, names⟩, started, walked⟩ := bind_eq_ok.1 located
  obtain ⟨front, rfl, named⟩ := start_join plain started
  obtain ⟨parent, toParent, last⟩ := walk_concat walked leads
  exact ⟨parent, named parent toParent, place_of_walk_name plain last leads⟩

end Members

end FileTree

namespace Program

section Commands

variable {files : FileTree}

theorem plainName_configName : FileTree.PlainName configName where
  noSlash := by decide
  notEmpty := by decide
  notDot := by decide
  notUp := by decide

theorem perform_init (files : FileTree) (directory : String) (force : Bool) :
    perform files (.init directory force) =
      let path := Path.join directory configName
      if files.isPresent path && !force then ⟨files, [], .failed .configExists⟩
      else
        match files.writeText path Config.default.write with
        | .ok written =>
          ⟨written, [.created (Path.shownFrom (FileTree.pathOf written.here) path)],
            .done (.init directory force)⟩
        | .error refusal => ⟨files, [], .failed (.file path .writeConfig refusal)⟩ := by
  rw [perform_eq, run, init, attempted_bind, attempted_isPresent]
  simp only []
  by_cases taken : (files.isPresent (Path.join directory configName) && !force) = true
  · rw [if_pos taken, if_pos taken]
    rfl
  · rw [if_neg taken, if_neg taken, attempted_bind, attempted_fileStep]
    have written : (Workspace.writeText (Path.join directory configName) Config.default.write :
        StateM Session (Except Refusal Unit)) =
      Session.writeText (Path.join directory configName) Config.default.write := rfl
    rw [written, Session.writeText]
    cases files.writeText (Path.join directory configName) Config.default.write <;> rfl

/-- What a command may have done to the files that were there before it, by the way it ended. -/
def Outcome.Respects (o : Outcome) (before : FileTree) : Prop :=
  match o.ending with
  | .unused _ | .failed _ | .done (.check ..) | .done (.completions _) => o.files = before
  | .done (.build argument output asked) =>
    (∃ stem, stem ≠ [] ∧ Path.EndsIn output.toList (stem ++ ".swift".toList)) ∧
      ∃ input compiled place, Compiles before argument asked input compiled ∧
        before.Wrote o.files output compiled.text place
  | .done (.init directory force) =>
    ∃ parent, before.NamesDirectory directory parent ∧
      before.Wrote o.files (Path.join directory "tokenc.yaml") Config.default.write
        (parent ++ ["tokenc.yaml"]) ∧
      (force = false → before.entry? (parent ++ ["tokenc.yaml"]) = none)

/-- Where a command has written, if it ended well. -/
def Outcome.Writes (o : Outcome) (before : FileTree) (place : Location) : Prop :=
  match o.ending with
  | .done (.build _ output _) => before.NamesFile output place
  | .done (.init directory _) => before.NamesFile (Path.join directory "tokenc.yaml") place
  | _ => False

instance (o : Outcome) (before : FileTree) (place : Location) :
    Decidable (o.Writes before place) :=
  match h : o.ending with
  | .done (.build _ output _) =>
    decidable_of_iff (before.NamesFile output place) (by rw [Outcome.Writes, h])
  | .done (.init directory _) =>
    decidable_of_iff (before.NamesFile (Path.join directory "tokenc.yaml") place)
      (by rw [Outcome.Writes, h])
  | .done (.check ..) | .done (.completions _) | .unused _ | .failed _ =>
    .isFalse (by rw [Outcome.Writes, h]; exact id)

theorem ends_in_swift {output : String} (swift : Path.hasExtension output Swift.fileExtension) :
    ∃ stem, stem ≠ [] ∧ Path.EndsIn output.toList (stem ++ ".swift".toList) :=
  (Path.hasExtension_iff (by decide) (by decide)).1 swift

theorem respects_check (files : FileTree) (argument : String) (asked : Option String) :
    (perform files (.check argument asked)).Respects files := by
  have kept := leavesFiles_compileInput argument asked { files := files }
  rw [perform_check]
  generalize attempted { files := files } (compileInput argument asked) = shared at kept ⊢
  rcases shared with ⟨_ | compiled, between⟩ <;> exact kept

theorem respects_build (files : FileTree) (argument output : String) (asked : Option String) :
    (perform files (.build argument output asked)).Respects files := by
  by_cases swift : Path.hasExtension output Swift.fileExtension
  · have kept := leavesFiles_compileInput argument asked { files := files }
    rw [perform_build files argument asked swift]
    cases shared : attempted { files := files } (compileInput argument asked) with
    | mk result between =>
    rw [shared] at kept
    cases result with
    | error failure => exact kept
    | ok compiled =>
        obtain ⟨input, compiles, rfl⟩ := compileInput_eq_ok.1 shared
        have unused := FileTree.unused_unusedName files output
        simp only [finishBuild]
        cases replaced : files.replaceText (files.unusedName output) output compiled.text with
        | mk result after =>
        cases result with
        | error refusal =>
            have undone : after = files := by
              have stays := FileTree.replaceText_of_error unused (congrArg Prod.fst replaced)
              rwa [replaced] at stays
            exact undone
        | ok done =>
            obtain ⟨place, wrote⟩ :=
              FileTree.wrote_of_replaceText unused (congrArg Prod.fst replaced)
            rw [replaced] at wrote
            exact ⟨ends_in_swift swift, input, compiled, place, compiles, wrote⟩
  · rw [perform_build_otherwise files argument asked swift]
    rfl

theorem respects_init (files : FileTree) (directory : String) (force : Bool) :
    (perform files (.init directory force)).Respects files := by
  rw [perform_init]
  simp only []
  split
  · rfl
  · rename_i free
    cases written : files.writeText (Path.join directory configName) Config.default.write with
    | error refusal => rfl
    | ok files' =>
        obtain ⟨place, wrote⟩ := FileTree.wrote_of_writeText written
        obtain ⟨parent, named, rfl⟩ := FileTree.parent_of_join plainName_configName wrote.named
        refine ⟨parent, named, wrote, ?_⟩
        rintro rfl
        refine wrote.named.entry?_eq_none ?_
        simpa using free

/-- A build ends well when its document compiles and its output can be replaced. -/
theorem runWords_build_of_compiles {words : List String} {argument output input : String}
    {asked : Option String} {compiled : Compiled}
    (read : CommandLine.read words = .ok (.build argument output asked))
    (swift : Path.hasExtension output Swift.fileExtension)
    (compiles : Compiles files argument asked input compiled)
    (replaced : (files.replaceText (files.unusedName output) output compiled.text).1 = .ok ()) :
    (runWords files words).ending = .done (.build argument output asked) ∧
      (runWords files words).files =
        (files.replaceText (files.unusedName output) output compiled.text).2 := by
  have run : runWords files words = perform files (.build argument output asked) := by
    rw [runWords, read]
  rw [run, perform_build files argument asked swift, compileInput_eq_ok.2 ⟨input, compiles, rfl⟩]
  simp only [finishBuild]
  cases made : files.replaceText (files.unusedName output) output compiled.text with
  | mk result after =>
      rw [made] at replaced
      obtain rfl : result = .ok () := replaced
      exact ⟨rfl, rfl⟩

theorem respects_runWords (files : FileTree) (words : List String) :
    (runWords files words).Respects files := by
  unfold runWords
  split
  · rename_i command _
    cases command with
    | build argument output asked => exact respects_build files argument output asked
    | check argument asked => exact respects_check files argument asked
    | init directory force => exact respects_init files directory force
    | completions shell => rfl
  · rfl

theorem Outcome.Respects.others {o : Outcome} (h : o.Respects files) {place : Location}
    (spared : ¬ o.Writes files place) : o.files.entry? place = files.entry? place := by
  obtain ⟨after, notices, ending⟩ := o
  cases ending with
  | unused | failed =>
      obtain rfl : after = files := h
      rfl
  | done command =>
      cases command with
      | check | completions =>
          obtain rfl : after = files := h
          rfl
      | build argument output asked =>
          obtain ⟨-, input, compiled, target, -, wrote⟩ := h
          refine wrote.others place ?_
          rintro rfl
          exact spared wrote.named
      | init directory force =>
          obtain ⟨parent, -, wrote, -⟩ := h
          refine wrote.others place ?_
          rintro rfl
          exact spared wrote.named

end Commands

section Sessions

/-- The steps of a session: each command finds the files that the one before it left behind. -/
def outcomes (files : FileTree) : List (List String) → List (FileTree × Outcome)
  | [] => []
  | words :: rest =>
    let o := runWords files words
    (files, o) :: outcomes o.files rest

/-- The files left behind by a session. -/
def filesAfter (files : FileTree) : List (List String) → FileTree
  | [] => files
  | words :: rest => filesAfter (runWords files words).files rest

theorem outcomes_cons (files : FileTree) (words : List String) (rest : List (List String)) :
    outcomes files (words :: rest) =
      (files, runWords files words) :: outcomes (runWords files words).files rest := rfl

theorem filesAfter_cons (files : FileTree) (words : List String) (rest : List (List String)) :
    filesAfter files (words :: rest) = filesAfter (runWords files words).files rest := rfl

/-- Every command of a session keeps to what it may write, so that a file stays what it was unless
a command that ended well has written it. -/
theorem session_respects_files (files : FileTree) (commands : List (List String)) :
    (∀ step ∈ outcomes files commands, step.2.Respects step.1) ∧
      ∀ place, (∀ step ∈ outcomes files commands, ¬ step.2.Writes step.1 place) →
        FileTree.entry? (filesAfter files commands) place = files.entry? place := by
  induction commands generalizing files with
  | nil => exact ⟨fun step h => (nomatch h), fun place _ => rfl⟩
  | cons words rest ih =>
      have first := respects_runWords files words
      obtain ⟨later, untouched⟩ := ih (runWords files words).files
      refine ⟨List.forall_mem_cons.2 ⟨first, later⟩, fun place spared => ?_⟩
      obtain ⟨now, thereafter⟩ := List.forall_mem_cons.1 spared
      exact (untouched place thereafter).trans (first.others now)

/-- What a build at the beginning of a session has written, and where, is settled by what it was
given. -/
theorem wrote_of_respected {files : FileTree} {words : List String} {rest : List (List String)}
    {argument output input : String} {asked : Option String} {compiled : Compiled}
    {place : Location}
    (respected : ∀ step ∈ outcomes files (words :: rest), step.2.Respects step.1)
    (done : (runWords files words).ending = .done (.build argument output asked))
    (compiles : Compiles files argument asked input compiled)
    (named : files.NamesFile output place) :
    files.Wrote (runWords files words).files output compiled.text place := by
  have first := respected _ List.mem_cons_self
  rw [Outcome.Respects, done] at first
  obtain ⟨-, _, _, _, compiles', wrote⟩ := first
  obtain rfl := compiles'.unique compiles
  obtain rfl := wrote.named.unique named
  exact wrote

/-- A document without any tokens. -/
def emptySource : String :=
  "\x7b\"Core/Main\":\x7b\"Colors\":\x7b\x7d,\"Spacing\":\x7b\x7d,\"Radius\":\x7b\x7d\x7d," ++
  "\"Semantic tokens/Light\":\x7b\x7d,\"Semantic tokens/Dark\":\x7b\x7d\x7d"

/-- A directory with a document and an old output, which only their owner may read. -/
def privateFiles : FileTree where
  entries := Table.ofList [
    (["w"], .directory), (["w", "a.json"], .file (.text emptySource) 0o600),
    (["w", "T.swift"], .file (.text "let old = 0") 0o600)]
  here := ["w"]

theorem compile_emptySource_succeeds :
    (compile emptySource Config.default).toOption.isSome := by
  -- the text is never asked for here, so it is not evaluated
  simp only [compile, Swift.emit_eq_map_render]
  decide +kernel

/-- What the document compiles to. -/
@[irreducible]
def emptyCompiled : Compiled :=
  (compile emptySource Config.default).toOption.get compile_emptySource_succeeds

theorem compile_emptySource : compile emptySource Config.default = .ok emptyCompiled := by
  refine toOption_eq_some.1 ?_
  unfold emptyCompiled
  exact (Option.some_get _).symm

/-- The document compiles where there is no configuration beside it. -/
theorem compiles_emptySource {files : FileTree}
    (missing : ¬ files.isFile (Path.join (Path.directoryOf "a.json") configName))
    (found : files.readText "a.json" = .ok emptySource) :
    Compiles files "[a.json]" none "a.json" emptyCompiled :=
  ⟨toOption_eq_some.1 (by decide +kernel), Config.default, emptySource, .default missing, found,
    compile_emptySource⟩

/-- The directory after a build over the old output. -/
@[irreducible]
def rebuiltFiles : FileTree :=
  (privateFiles.replaceText (privateFiles.unusedName "T.swift") "T.swift" emptyCompiled.text).2

/-- The directory after another build, into a file that was not there. -/
@[irreducible]
def twiceBuiltFiles : FileTree :=
  (rebuiltFiles.replaceText (rebuiltFiles.unusedName "N.swift") "N.swift" emptyCompiled.text).2

theorem compiles_in_privateFiles :
    Compiles privateFiles "[a.json]" none "a.json" emptyCompiled :=
  compiles_emptySource (by decide +kernel) (toOption_eq_some.1 (by decide +kernel))

theorem compiles_in_rebuiltFiles :
    Compiles rebuiltFiles "[a.json]" none "a.json" emptyCompiled :=
  compiles_emptySource (by decide +kernel) (toOption_eq_some.1 (by decide +kernel))

theorem runWords_over_old :
    (runWords privateFiles ["build", "[a.json]", "T.swift"]).ending =
        .done (.build "[a.json]" "T.swift" none) ∧
      (runWords privateFiles ["build", "[a.json]", "T.swift"]).files = rebuiltFiles := by
  rw [rebuiltFiles]
  exact runWords_build_of_compiles (toOption_eq_some.1 (by decide +kernel)) (by decide +kernel)
    compiles_in_privateFiles (toOption_eq_some.1 (by decide +kernel))

theorem runWords_into_new :
    (runWords rebuiltFiles ["build", "[a.json]", "N.swift"]).ending =
        .done (.build "[a.json]" "N.swift" none) ∧
      (runWords rebuiltFiles ["build", "[a.json]", "N.swift"]).files = twiceBuiltFiles := by
  rw [twiceBuiltFiles]
  exact runWords_build_of_compiles (toOption_eq_some.1 (by decide +kernel)) (by decide +kernel)
    compiles_in_rebuiltFiles (toOption_eq_some.1 (by decide +kernel))

/-- Two builds, one over an old output and one into a new file, and then commands that do not come
near the outputs. -/
theorem session_respects_files_old_and_new :
    let commands := [["build", "[a.json]", "T.swift"], ["build", "[a.json]", "N.swift"],
      ["init"], ["init"], ["check", "[d/b.json]"], ["build", "[d/b.json]", "T.swift"]]
    (outcomes privateFiles commands).map (·.2.ending.exitCode) = [0, 0, 0, 4, 4, 4] ∧
      compile emptySource Config.default = .ok emptyCompiled ∧
      FileTree.entry? (filesAfter privateFiles commands) ["w", "T.swift"] =
        some (.file (.text emptyCompiled.text) 0o600) ∧
      FileTree.entry? (filesAfter privateFiles commands) ["w", "N.swift"] =
        some (.file (.text emptyCompiled.text) 0o644) := by
  obtain ⟨firstDone, once⟩ := runWords_over_old
  obtain ⟨secondDone, twice⟩ := runWords_into_new
  let later := [["init"], ["init"], ["check", "[d/b.json]"], ["build", "[d/b.json]", "T.swift"]]
  have afterOnce : outcomes rebuiltFiles (["build", "[a.json]", "N.swift"] :: later) =
      (rebuiltFiles, runWords rebuiltFiles ["build", "[a.json]", "N.swift"]) ::
        outcomes twiceBuiltFiles later := by
    rw [outcomes_cons, twice]
  have all : outcomes privateFiles
      (["build", "[a.json]", "T.swift"] :: ["build", "[a.json]", "N.swift"] :: later) =
        (privateFiles, runWords privateFiles ["build", "[a.json]", "T.swift"]) ::
          (rebuiltFiles, runWords rebuiltFiles ["build", "[a.json]", "N.swift"]) ::
            outcomes twiceBuiltFiles later := by
    rw [outcomes_cons, once, afterOnce]
  intro commands
  have old : privateFiles.Wrote rebuiltFiles "T.swift" emptyCompiled.text ["w", "T.swift"] := by
    rw [← once]
    exact wrote_of_respected (session_respects_files privateFiles commands).1 firstDone
      compiles_in_privateFiles (by decide +kernel)
  have new : rebuiltFiles.Wrote twiceBuiltFiles "N.swift" emptyCompiled.text ["w", "N.swift"] := by
    rw [← twice]
    exact wrote_of_respected (session_respects_files rebuiltFiles commands.tail).1 secondDone
      compiles_in_rebuiltFiles (by decide +kernel)
  have missing : rebuiltFiles.entry? ["w", "N.swift"] = none := old.others _ (by decide)
  refine ⟨?_, compile_emptySource, ?_, ?_⟩
  · rw [all, List.map_cons, List.map_cons, firstDone, secondDone]
    decide +kernel
  · rw [filesAfter_cons, once, ← old.replaces rfl]
    refine (session_respects_files rebuiltFiles _).2 _ ?_
    rw [afterOnce]
    refine List.forall_mem_cons.2 ⟨?_, by decide +kernel⟩
    rw [Outcome.Writes, secondDone]
    decide +kernel
  · rw [filesAfter_cons, once, filesAfter_cons, twice, ← new.creates missing]
    exact (session_respects_files twiceBuiltFiles _).2 _ (by decide +kernel)

end Sessions

end Program

end DesignTokens
