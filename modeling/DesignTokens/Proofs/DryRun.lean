import DesignTokens.Proofs.CommandRuns
import DesignTokens.Proofs.Rendering

/-!
Checking a document as a rehearsal of building it. Whatever goes wrong before the output is written
goes wrong for both, with the same words before it; what is left to go wrong for the build alone is
the writing.
-/
namespace DesignTokens.Program

def Notice.isWarning (n : Notice) : Bool := n.verb = "Warning"

/-- The verbs of what is told about a document that compiles. -/
def compilingVerbs : List String := ["Reading", "Resolved", "Warning", "Merged"]

theorem verb_mem_compilingVerbs {t : FileTree} {input : String} {compiled : Compiled} {n : Notice}
    (h : n ∈ compilingNotices t input compiled) : n.verb ∈ compilingVerbs := by
  simp only [compilingNotices, Notice.ofTokens, List.mem_cons, List.mem_append, List.mem_map,
    List.not_mem_nil, or_false] at h
  rcases h with rfl | ((rfl | ⟨name, -, rfl⟩) | ⟨name, -, rfl⟩) | rfl <;>
    simp [Notice.verb, compilingVerbs]

theorem countP_isWarning_skipped (names : List TokenName) (missing : Variant) :
    (names.map (Notice.skipped · missing)).countP Notice.isWarning = names.length := by
  rw [List.countP_map]
  exact List.countP_eq_length.2 fun _ _ => rfl

theorem countP_isWarning_compilingNotices (t : FileTree) (input : String) (compiled : Compiled) :
    (compilingNotices t input compiled).countP Notice.isWarning =
      compiled.tokens.colours.dropped := by
  simp only [compilingNotices, Notice.ofTokens, List.countP_cons, List.countP_append,
    countP_isWarning_skipped, List.countP_nil, Merged.dropped]
  simp [Notice.isWarning, Notice.verb]

theorem finishBuild_ending (s : Session) (argument output : String) (asked : Option String)
    (compiled : Compiled) :
    let built := finishBuild s argument output asked compiled
    (built.ending = .done (.build argument output asked) ∧ ∃ path,
        built.notices = s.notices ++ [.generated path compiled.tokens.constantCount]) ∨
      (built.notices = s.notices ∧ ∃ refusal,
        built.ending = .failed (.file output .writeOutput refusal)) := by
  unfold finishBuild
  rcases s.files.replaceText (s.files.unusedName output) output compiled.text with
    ⟨refusal | _, files⟩
  · exact Or.inr ⟨rfl, refusal, rfl⟩
  · exact Or.inl ⟨rfl, _, rfl⟩

/-- A check that fails tells how the build would, and one that succeeds leaves it nothing to fail
with but the output file. -/
theorem check_predicts_build (files : FileTree) (argument : String) (asked : Option String)
    {output : String} (swift : Path.hasExtension output Swift.fileExtension) :
    let checked := perform files (.check argument asked)
    let built := perform files (.build argument output asked)
    (∀ failure, checked.ending = .failed failure →
        built.ending = .failed failure ∧ built.notices = checked.notices) ∧
      (checked.ending = .done (.check argument asked) →
        ∃ told constants skipped,
          checked.notices = told ++ [.checked constants skipped] ∧
          (∀ n ∈ told, n.verb ∈ compilingVerbs) ∧
          built.notices.countP Notice.isWarning = skipped ∧
          ((built.ending = .done (.build argument output asked) ∧
              ∃ path, built.notices = told ++ [.generated path constants]) ∨
            (built.notices = told ∧
              ∃ refusal, built.ending = .failed (.file output .writeOutput refusal)))) := by
  intro checked built
  have check : checked = _ := perform_check files argument asked
  have build : built = _ := perform_build files argument asked swift
  generalize checked = checked at check ⊢
  generalize built = built at build ⊢
  cases shared : attempted { files := files } (compileInput argument asked) with
  | mk result between =>
  rw [shared] at check build
  cases result with
  | error failure =>
      subst check build
      refine ⟨fun other h => ?_, fun h => nomatch h⟩
      cases h
      exact ⟨rfl, rfl⟩
  | ok compiled =>
      obtain ⟨input, -, rfl⟩ := compileInput_eq_ok.1 shared
      have warnings := countP_isWarning_compilingNotices files input compiled
      subst check build
      refine ⟨fun other h => (nomatch h), fun _ => ?_⟩
      refine ⟨compilingNotices files input compiled, compiled.tokens.constantCount,
        compiled.tokens.colours.dropped, rfl, fun n => verb_mem_compilingVerbs, ?_⟩
      rcases finishBuild_ending _ argument output asked compiled with
        ⟨done, path, told⟩ | ⟨told, failed⟩
      · refine ⟨?_, Or.inl ⟨done, path, told⟩⟩
        rw [told, List.countP_append]
        exact warnings
      · refine ⟨?_, Or.inr ⟨told, failed⟩⟩
        rw [told]
        exact warnings

/-- A document in which a colour has no dark variant. -/
def lightSource : String :=
  "\x7b\"Core/Main\":\x7b\"Colors\":\x7b\"a\":\x7b\"type\":\"\",\"value\":\"#010203\"\x7d\x7d," ++
  "\"Spacing\":\x7b\x7d,\"Radius\":\x7b\x7d\x7d," ++
  "\"Semantic tokens/Light\":\x7b\"F\":\x7b" ++
  "\"x\":\x7b\"type\":\"\",\"value\":\"\x7ba\x7d\"\x7d\x7d\x7d," ++
  "\"Semantic tokens/Dark\":\x7b\x7d\x7d"

def lightFiles : FileTree where
  entries := Table.ofList [
    (["w"], .directory), (["w", "a.json"], .file (.text lightSource) FileTree.newFileMode)]
  here := ["w"]

theorem lightFiles_compile : ∃ compiled : Compiled,
    Compiles lightFiles "[a.json]" none "a.json" compiled ∧ compiled.tokens.constantCount = 0 ∧
      compiled.tokens.colours.dropped = 1 := by
  have evaluated : (compile lightSource Config.default).toOption.map
      (fun c => (c.tokens.constantCount, c.tokens.colours.dropped)) = some (0, 1) := by
    -- the text is never asked for here, so it is not evaluated
    simp only [compile, Swift.emit_eq_map_render]
    decide +kernel
  obtain ⟨compiled, compiles, counts⟩ := Option.map_eq_some_iff.1 evaluated
  obtain ⟨constants, dropped⟩ := Prod.mk.inj counts
  have missing : ¬ lightFiles.isFile (Path.join (Path.directoryOf "a.json") configName) := by
    decide +kernel
  have named : inputPath "[a.json]" = .ok "a.json" :=
    toOption_eq_some.1 (by decide +kernel)
  have found : lightFiles.readText "a.json" = .ok lightSource :=
    toOption_eq_some.1 (by decide +kernel)
  exact ⟨compiled, ⟨named, Config.default, lightSource, .default missing, found,
    toOption_eq_some.1 compiles⟩, constants, dropped⟩

theorem check_predicts_build_skipping :
    (perform lightFiles (.check "[a.json]" none)).ending = .done (.check "[a.json]" none) ∧
      (perform lightFiles (.check "[a.json]" none)).notices.getLast? = some (.checked 0 1) ∧
      (perform lightFiles (.build "[a.json]" "T.swift" none)).notices.countP
        Notice.isWarning = 1 := by
  obtain ⟨compiled, compiles, constants, dropped⟩ := lightFiles_compile
  have checked := perform_check lightFiles "[a.json]" none
  rw [compileInput_eq_ok.2 ⟨_, compiles, rfl⟩] at checked
  simp only [constants, dropped] at checked
  have succeeds := congrArg Outcome.ending checked
  have swift : Path.hasExtension "T.swift" Swift.fileExtension := by decide +kernel
  obtain ⟨-, predicted⟩ := check_predicts_build lightFiles "[a.json]" none swift
  obtain ⟨told, shown, skipped, summary, -, warnings, -⟩ := predicted succeeds
  have last : (perform lightFiles (.check "[a.json]" none)).notices.getLast? =
      some (.checked 0 1) := by
    rw [checked]
    exact List.getLast?_concat
  refine ⟨succeeds, last, ?_⟩
  rw [summary, List.getLast?_concat] at last
  cases last
  exact warnings

end DesignTokens.Program
