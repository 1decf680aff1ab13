import DesignTokens.Program.Session
import DesignTokens.Proofs.WrittenFiles

/-!
Runs of commands on a tree of files. What reads or tells leaves the files alone, so that a run comes
to what its last step does with them; up to that step `check` and `build` are the same run.
-/
namespace DesignTokens.Program

variable {α β : Type} {s s' : Session}

/-- How an attempt ends that begins in `s`, and what it leaves behind. -/
def attempted (s : Session) (x : Attempt (StateM Session) α) : Except Failure α × Session := x s

section Attempts

variable {x : Attempt (StateM Session) α} {f : α → Attempt (StateM Session) β}

theorem attempted_bind (s : Session) (x : Attempt (StateM Session) α)
    (f : α → Attempt (StateM Session) β) :
    attempted s (x >>= f) =
      match attempted s x with
      | (.ok a, between) => attempted between (f a)
      | (.error failure, between) => (.error failure, between) := by
  simp only [attempted, bind, ExceptT.bind, ExceptT.mk, StateT.bind, ExceptT.bindCont]
  rcases x s with ⟨_ | _, _⟩ <;> rfl

theorem attempted_bind_eq_ok {b : β} :
    attempted s (x >>= f) = (.ok b, s') ↔
      ∃ a between, attempted s x = (.ok a, between) ∧ attempted between (f a) = (.ok b, s') := by
  rw [attempted_bind]
  rcases attempted s x with ⟨_ | a, between⟩
  · simp
  · simp only [Prod.mk.injEq, Except.ok.injEq]
    exact ⟨fun h => ⟨a, between, ⟨rfl, rfl⟩, h⟩, fun ⟨_, _, ⟨rfl, rfl⟩, h⟩ => h⟩

/-- An attempt that at most tells something. -/
def LeavesFiles (x : Attempt (StateM Session) α) : Prop :=
  ∀ s, (attempted s x).2.files = s.files

theorem LeavesFiles.bind (hx : LeavesFiles x) (hf : ∀ a, LeavesFiles (f a)) :
    LeavesFiles (x >>= f) := by
  intro s
  have kept := hx s
  rw [attempted_bind]
  generalize attempted s x = first at kept ⊢
  rcases first with ⟨_ | a, between⟩
  · exact kept
  · exact (hf a between).trans kept

theorem attempted_lift (s : Session) (result : Except Failure α) :
    attempted s (liftM result) = (result, s) := by
  cases result <;> rfl

theorem attempted_lift_eq_ok {result : Except Failure α} {a : α} :
    attempted s (liftM result) = (.ok a, s') ↔ result = .ok a ∧ s' = s := by
  rw [attempted_lift, Prod.mk.injEq, eq_comm (a := s)]

theorem attempted_pure_eq_ok {a b : α} :
    attempted s (pure a) = (.ok b, s') ↔ b = a ∧ s' = s := by
  have answered : attempted s (pure a) = (.ok a, s) := rfl
  rw [answered, Prod.mk.injEq, Except.ok.injEq, eq_comm (b := b), eq_comm (b := s')]

theorem attempted_notify_eq_ok {notice : Notice} {u : Unit} :
    attempted s (notify notice) = (.ok u, s') ↔
      s' = { s with notices := s.notices ++ [notice] } := by
  have told : attempted s (notify notice) =
      (.ok (), { s with notices := s.notices ++ [notice] }) := rfl
  rw [told, Prod.mk.injEq, eq_comm (b := s')]
  exact and_iff_right rfl

theorem attempted_shown_eq_ok {path answer : String} :
    attempted s (shown path) = (.ok answer, s') ↔
      answer = Path.shownFrom (FileTree.pathOf s.files.here) path ∧ s' = s := by
  have told : attempted s (shown path) =
      (.ok (Path.shownFrom (FileTree.pathOf s.files.here) path), s) := rfl
  rw [told, Prod.mk.injEq, Except.ok.injEq, eq_comm (b := answer), eq_comm (b := s')]

theorem attempted_isFile (s : Session) (path : String) :
    attempted s (Workspace.isFile path : StateM Session Bool) = (.ok (s.files.isFile path), s) :=
  rfl

theorem attempted_isPresent (s : Session) (path : String) :
    attempted s (Workspace.isPresent path : StateM Session Bool) =
      (.ok (s.files.isPresent path), s) := rfl

theorem attempted_fileStep (s : Session) (path : String) (purpose : FileUse)
    (step : StateM Session (Except Refusal α)) :
    attempted s (fileStep path purpose step) =
      ((step s).1.mapError (Failure.file path purpose), (step s).2) := by
  have lifted : attempted s (liftM step) = (.ok (step s).1, (step s).2) := rfl
  simp only [fileStep, attempted_bind, lifted]
  cases (step s).1 <;> rfl

theorem attempted_readStep (s : Session) (path : String) (purpose : FileUse) :
    attempted s (fileStep path purpose (Workspace.readText path)) =
      ((s.files.readText path).mapError (Failure.file path purpose), s) :=
  attempted_fileStep s path purpose (Workspace.readText path)

theorem attempted_replaceStep (s : Session) (path text : String) (purpose : FileUse) :
    attempted s (fileStep path purpose (Workspace.replaceText path text)) =
      let (result, files) := s.files.replaceText (s.files.unusedName path) path text
      (result.mapError (Failure.file path purpose), { s with files := files }) :=
  attempted_fileStep s path purpose (Workspace.replaceText path text)

theorem attempted_readStep_eq_ok {path text : String} {purpose : FileUse} :
    attempted s (fileStep path purpose (Workspace.readText path)) = (.ok text, s') ↔
      s.files.readText path = .ok text ∧ s' = s := by
  rw [attempted_readStep, Prod.mk.injEq, eq_comm (a := s)]
  cases s.files.readText path <;> simp [Except.mapError]

theorem attempted_forM_notify_eq_ok {notices : List Notice} {u : Unit} :
    attempted s (notices.forM notify) = (.ok u, s') ↔
      s' = { s with notices := s.notices ++ notices } := by
  induction notices generalizing s with
  | nil =>
      have told : attempted s (([] : List Notice).forM notify) = (.ok (), s) := rfl
      rw [told, Prod.mk.injEq, eq_comm (b := s'), List.append_nil]
      exact and_iff_right rfl
  | cons notice rest ih =>
      have first : (notice :: rest).forM notify =
          (notify notice : Attempt (StateM Session) Unit) >>= fun _ => rest.forM notify := rfl
      simp only [first, attempted_bind_eq_ok, attempted_notify_eq_ok, ih]
      simp

end Attempts

section Compiling

/-- The configuration that a run on a tree goes by: the one asked for, or else the one in the file
beside the input, or else the default. -/
inductive Configures (t : FileTree) (input : String) : Option String → Config → Prop where
  | asked {path text : String} {config : Config} (found : t.readText path = .ok text)
      (read : Config.read text = .ok config) : Configures t input (some path) config
  | beside {text : String} {config : Config}
      (there : t.isFile (Path.join (Path.directoryOf input) configName))
      (found : t.readText (Path.join (Path.directoryOf input) configName) = .ok text)
      (read : Config.read text = .ok config) : Configures t input none config
  | default (missing : ¬ t.isFile (Path.join (Path.directoryOf input) configName)) :
      Configures t input none Config.default

/-- The document at `input`, which is the one that an argument names, compiles. -/
def Compiles (t : FileTree) (argument : String) (asked : Option String) (input : String)
    (compiled : Compiled) : Prop :=
  inputPath argument = .ok input ∧ ∃ config source, Configures t input asked config ∧
    t.readText input = .ok source ∧ compile source config = .ok compiled

/-- What is told about a document that compiles. -/
def compilingNotices (t : FileTree) (input : String) (compiled : Compiled) : List Notice :=
  .reading (Path.shownFrom (FileTree.pathOf t.here) input) :: Notice.ofTokens compiled.tokens

theorem leavesFiles_lift (result : Except Failure α) :
    LeavesFiles (liftM result : Attempt (StateM Session) α) := by
  intro s
  rw [attempted_lift]

theorem leavesFiles_notices (notices : List Notice) :
    LeavesFiles (notices.forM notify : Attempt (StateM Session) Unit) := by
  induction notices with
  | nil => exact fun s => rfl
  | cons notice rest ih => exact LeavesFiles.bind (fun s => rfl) fun _ => ih

theorem leavesFiles_loadConfig (path : String) :
    LeavesFiles (loadConfig path : Attempt (StateM Session) Config) := by
  refine LeavesFiles.bind (fun s => ?_) fun text => leavesFiles_lift _
  rw [attempted_readStep]

theorem leavesFiles_findConfig (input : String) (asked : Option String) :
    LeavesFiles (findConfig input asked : Attempt (StateM Session) Config) := by
  cases asked with
  | some path => exact leavesFiles_loadConfig path
  | none =>
      refine LeavesFiles.bind (fun s => rfl) fun there => ?_
      cases there
      · exact fun s => rfl
      · exact leavesFiles_loadConfig _

theorem leavesFiles_compileInput (argument : String) (asked : Option String) :
    LeavesFiles (compileInput argument asked : Attempt (StateM Session) Compiled) := by
  refine .bind (leavesFiles_lift _) fun input => .bind (leavesFiles_findConfig input asked) ?_
  refine fun config => .bind (fun s => rfl) fun path => .bind (fun s => rfl) fun _ => ?_
  refine .bind (fun s => ?_) fun source => .bind (leavesFiles_lift _) fun compiled => ?_
  · rw [attempted_readStep]
  · exact .bind (leavesFiles_notices _) fun _ => fun s => rfl

theorem loadConfig_eq_ok {path : String} {config : Config} :
    attempted s (loadConfig path) = (.ok config, s') ↔
      ∃ text, s.files.readText path = .ok text ∧ Config.read text = .ok config ∧ s' = s := by
  simp only [loadConfig, attempted_bind_eq_ok, attempted_readStep_eq_ok, attempted_lift_eq_ok]
  constructor
  · intro h
    obtain ⟨text, _, ⟨found, rfl⟩, read, rfl⟩ := h
    exact ⟨text, found, read, rfl⟩
  · intro h
    obtain ⟨text, found, read, rfl⟩ := h
    exact ⟨text, _, ⟨found, rfl⟩, read, rfl⟩

theorem attempted_findConfig_none (s : Session) (input : String) :
    attempted s (findConfig input none) =
      if s.files.isFile (Path.join (Path.directoryOf input) configName) then
        attempted s (loadConfig (Path.join (Path.directoryOf input) configName))
      else (.ok Config.default, s) := by
  rw [findConfig, attempted_bind, attempted_isFile]
  simp only []
  split <;> rfl

theorem findConfig_eq_ok {input : String} {asked : Option String} {config : Config} :
    attempted s (findConfig input asked) = (.ok config, s') ↔
      Configures s.files input asked config ∧ s' = s := by
  constructor
  · intro h
    cases asked with
    | some path =>
        obtain ⟨text, found, read, rfl⟩ := loadConfig_eq_ok.1 h
        exact ⟨.asked found read, rfl⟩
    | none =>
        rw [attempted_findConfig_none] at h
        split at h
        · rename_i there
          obtain ⟨text, found, read, rfl⟩ := loadConfig_eq_ok.1 h
          exact ⟨.beside there found read, rfl⟩
        · rename_i missing
          obtain ⟨default, same⟩ := Prod.mk.inj h
          obtain rfl := Except.ok.inj default
          exact ⟨.default missing, same.symm⟩
  · intro h
    obtain ⟨configures, rfl⟩ := h
    cases configures with
    | asked found read => exact loadConfig_eq_ok.2 ⟨_, found, read, rfl⟩
    | beside there found read =>
        rw [attempted_findConfig_none, if_pos there]
        exact loadConfig_eq_ok.2 ⟨_, found, read, rfl⟩
    | default missing => rw [attempted_findConfig_none, if_neg missing]

theorem compileInput_eq_ok {argument : String} {asked : Option String} {compiled : Compiled} :
    attempted s (compileInput argument asked) = (.ok compiled, s') ↔
      ∃ input, Compiles s.files argument asked input compiled ∧
        s' = { s with notices := s.notices ++ compilingNotices s.files input compiled } := by
  simp only [compileInput, attempted_bind_eq_ok, attempted_lift_eq_ok, attempted_shown_eq_ok,
    attempted_notify_eq_ok, attempted_readStep_eq_ok, attempted_forM_notify_eq_ok,
    findConfig_eq_ok, attempted_pure_eq_ok]
  constructor
  · intro h
    obtain ⟨input, _, ⟨named, rfl⟩, config, _, ⟨configured, rfl⟩, path, _, ⟨rfl, rfl⟩, -, _, rfl,
      source, _, ⟨found, rfl⟩, answer, _, ⟨compiles, rfl⟩, -, _, rfl, rfl, rfl⟩ := h
    exact ⟨input, ⟨named, config, source, configured, found, compiles⟩, by simp [compilingNotices]⟩
  · intro h
    obtain ⟨input, ⟨named, config, source, configured, found, compiles⟩, rfl⟩ := h
    refine ⟨input, s, ⟨named, rfl⟩, config, s, ⟨configured, rfl⟩, _, s, ⟨rfl, rfl⟩, (), _, rfl,
      source, _, ⟨found, rfl⟩, compiled, _, ⟨compiles, rfl⟩, (), _, rfl, rfl, ?_⟩
    simp [compilingNotices]

theorem Compiles.unique {t : FileTree} {argument input other : String} {asked : Option String}
    {compiled compiled' : Compiled} (h : Compiles t argument asked input compiled)
    (h' : Compiles t argument asked other compiled') : compiled = compiled' := by
  have ran : attempted { files := t } (compileInput argument asked) = _ :=
    compileInput_eq_ok.2 ⟨input, h, rfl⟩
  rw [compileInput_eq_ok.2 ⟨other, h', rfl⟩] at ran
  exact (Except.ok.inj (Prod.mk.inj ran).1).symm

end Compiling

section Commands

variable {files : FileTree} {command : Command}

theorem perform_eq (files : FileTree) (command : Command) :
    perform files command =
      match attempted { files := files } (run command) with
      | (.ok (), s) => ⟨s.files, s.notices, .done command⟩
      | (.error failure, s) => ⟨s.files, s.notices, .failed failure⟩ := by
  unfold perform attempted
  rcases (run command : Attempt (StateM Session) Unit) { files := files } with ⟨_ | _, _⟩ <;> rfl

theorem perform_check (files : FileTree) (argument : String) (asked : Option String) :
    perform files (.check argument asked) =
      match attempted { files := files } (compileInput argument asked) with
      | (.ok compiled, s) =>
        let tokens := compiled.tokens
        ⟨s.files, s.notices ++ [.checked tokens.constantCount tokens.colours.dropped],
          .done (.check argument asked)⟩
      | (.error failure, s) => ⟨s.files, s.notices, .failed failure⟩ := by
  rw [perform_eq, run, check, attempted_bind]
  rcases attempted { files := files } (compileInput argument asked) with ⟨_ | _, _⟩ <;> rfl

/-- How a build ends whose document compiles. -/
def finishBuild (s : Session) (argument output : String) (asked : Option String)
    (compiled : Compiled) : Outcome :=
  match s.files.replaceText (s.files.unusedName output) output compiled.text with
  | (.ok (), files) =>
    let path := Path.shownFrom (FileTree.pathOf files.here) output
    ⟨files, s.notices ++ [.generated path compiled.tokens.constantCount],
      .done (.build argument output asked)⟩
  | (.error refusal, files) => ⟨files, s.notices, .failed (.file output .writeOutput refusal)⟩

theorem perform_build (files : FileTree) (argument : String) (asked : Option String)
    {output : String} (swift : Path.hasExtension output Swift.fileExtension) :
    perform files (.build argument output asked) =
      match attempted { files := files } (compileInput argument asked) with
      | (.ok compiled, s) => finishBuild s argument output asked compiled
      | (.error failure, s) => ⟨s.files, s.notices, .failed failure⟩ := by
  have accepted : checkExtension output Swift.fileExtension = .ok () := if_pos swift
  rw [perform_eq, run, build, attempted_bind, attempted_lift, accepted]
  simp only [attempted_bind]
  rcases attempted { files := files } (compileInput argument asked) with ⟨_ | compiled, s⟩
  · rfl
  · simp only [attempted_replaceStep, finishBuild]
    rcases s.files.replaceText (s.files.unusedName output) output compiled.text with
      ⟨_ | _, files⟩ <;> rfl

theorem perform_build_otherwise (files : FileTree) (argument : String) (asked : Option String)
    {output : String} (other : ¬ Path.hasExtension output Swift.fileExtension) :
    perform files (.build argument output asked) =
      ⟨files, [], .failed (.outputExtension output Swift.fileExtension)⟩ := by
  have refused : checkExtension output Swift.fileExtension =
      .error (.outputExtension output Swift.fileExtension) := if_neg other
  rw [perform_eq, run, build, attempted_bind, attempted_lift, refused]

end Commands

end DesignTokens.Program
