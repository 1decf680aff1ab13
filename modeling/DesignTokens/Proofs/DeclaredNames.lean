import DesignTokens.Proofs.BalancedText
import DesignTokens.Proofs.TakingApart
import DesignTokens.Swift.Validation

/-!
What the check of declared names lets through: in every scope each name is an identifier once its
backticks are off, and no two names are then the same. Such a name holds no character that could
end a line, begin a comment or a string, or count as a delimiter.
-/
namespace DesignTokens.Swift

namespace Scope

def bareNames (names : List Named) : List String := names.map fun n => unquote n.name

theorem checkNames_eq_ok {title : String} {seen : List String} {names : List Named} :
    checkNames title seen names = .ok () ↔
      (∀ bare ∈ bareNames names, isIdentifier bare ∧ bare ∉ seen) ∧ (bareNames names).Nodup := by
  induction names generalizing seen with
  | nil => simp [checkNames, bareNames]
  | cons n rest ih =>
      rw [checkNames]
      by_cases identifier : isIdentifier (unquote n.name)
      · by_cases new : unquote n.name ∈ seen
        · simp [identifier, new, bareNames]
        · simp only [identifier, new, ih, Bool.not_true, Bool.false_eq_true, if_false]
          constructor
          · intro h
            obtain ⟨others, distinct⟩ := h
            refine ⟨List.forall_mem_cons.2 ⟨⟨identifier, new⟩, fun bare hbare => ?_⟩,
              List.nodup_cons.2 ⟨fun hbare => ?_, distinct⟩⟩
            · exact ⟨(others bare hbare).1,
                fun old => (others bare hbare).2 (List.mem_cons_of_mem _ old)⟩
            · exact (others _ hbare).2 List.mem_cons_self
          · intro h
            obtain ⟨-, others⟩ := List.forall_mem_cons.1 h.1
            obtain ⟨fresh, distinct⟩ := List.nodup_cons.1 h.2
            refine ⟨fun bare hbare => ⟨(others bare hbare).1, fun old => ?_⟩, distinct⟩
            cases List.mem_cons.1 old with
            | inl same =>
                subst same
                exact fresh hbare
            | inr old => exact (others bare hbare).2 old
      · simp [identifier, bareNames]

theorem check_eq_ok {s : Scope} :
    s.check = .ok () ↔
      (∀ bare ∈ bareNames s.names, isIdentifier bare) ∧ (bareNames s.names).Nodup := by
  simp only [check, checkNames_eq_ok, List.not_mem_nil, not_false_eq_true, and_true]

end Scope

theorem unquote_eq_or {name : String} :
    unquote name = name ∨ name.toList = backtick :: (unquote name).toList ++ [backtick] := by
  unfold unquote
  split
  · rename_i c rest spelled
    split
    · rename_i begins
      cases ended : Text.dropEnd? [backtick] rest with
      | none => exact .inl rfl
      | some inner =>
          right
          rw [spelled, begins, Text.dropEnd?_eq_some.1 ended]
          simp
    · exact .inl rfl
  · exact .inl rfl

/-- What a name that passed the check is made of. -/
def isNameChar (c : Char) : Bool := isIdentifierPart c || c = backtick

theorem isNameChar_of_mem {name : String} (h : isIdentifier (unquote name)) {c : Char}
    (hc : c ∈ name.toList) : isNameChar c := by
  rw [isNameChar, Bool.or_eq_true, decide_eq_true_eq]
  cases @unquote_eq_or name with
  | inl same =>
      rw [same] at h
      exact .inl (isIdentifierPart_of_mem h hc)
  | inr quoted =>
      rw [quoted, List.mem_append, List.mem_cons, List.mem_singleton] at hc
      rcases hc with (tick | hc) | tick
      · exact .inr tick
      · exact .inl (isIdentifierPart_of_mem h hc)
      · exact .inr tick

theorem inert_of_isIdentifier {name : String} (h : isIdentifier (unquote name)) :
    Inert name.toList := by
  intro c hc
  exact not_mem_meaningful (by decide) (isNameChar_of_mem h hc)

namespace Declarations

theorem validate_eq_ok {d : Declarations} :
    d.validate = .ok () ↔ ∀ s ∈ d.scopes,
      (∀ bare ∈ Scope.bareNames s.names, isIdentifier bare) ∧ (Scope.bareNames s.names).Nodup := by
  simp only [validate, forM_eq_ok, Scope.check_eq_ok]

theorem build_eq_ok {config : Config} {colours : List MergedEntry} {spacing radius : List Size}
    {d : Declarations} :
    build config colours spacing radius = .ok d ↔
      d = arrange config colours spacing radius ∧ d.validate = .ok () := by
  simp only [build, bind_eq_ok]
  constructor
  · intro h
    obtain ⟨⟨⟩, valid, h⟩ := h
    obtain rfl := Except.ok.inj h
    exact ⟨rfl, valid⟩
  · intro h
    obtain ⟨rfl, valid⟩ := h
    exact ⟨(), valid, rfl⟩

theorem build_eq_error {config : Config} {colours : List MergedEntry} {spacing radius : List Size}
    {fault : Failure} :
    build config colours spacing radius = .error fault ↔
      (arrange config colours spacing radius).validate = .error fault := by
  rw [build]
  cases (arrange config colours spacing radius).validate <;> simp [bind, Except.bind, pure,
    Except.pure]

/-- The name stands in one of the scopes and passed the check there. -/
def Declares (d : Declarations) (name : String) : Prop :=
  (∃ s ∈ d.scopes, ∃ n ∈ s.names, n.name = name) ∧ isIdentifier (unquote name)

instance (d : Declarations) (name : String) : Decidable (d.Declares name) :=
  inferInstanceAs (Decidable ((∃ s ∈ d.scopes, ∃ n ∈ s.names, n.name = name) ∧
    isIdentifier (unquote name)))

section Scopes
variable {d : Declarations}

theorem topLevel_mem_scopes : d.topLevel ∈ d.scopes := by simp [scopes]

theorem groupScope_mem_scopes : d.groupScope ∈ d.scopes := by simp [scopes]

theorem colourScope_mem_scopes {g : ColourGroup} (hg : g ∈ d.groups) :
    colourScope g ∈ d.scopes := by
  simp only [scopes, List.mem_append]
  exact .inl (.inr (List.mem_map_of_mem hg))

theorem sizeScope_mem_scopes {g : SizeGroup} (hg : g ∈ [d.spacing, d.radius]) :
    sizeScope g ∈ d.scopes := by
  simp only [scopes, List.mem_append]
  exact .inr (List.mem_map_of_mem hg)

end Scopes

section Declared
variable {d : Declarations} (valid : d.validate = .ok ())
include valid

theorem declares_of_mem {s : Scope} (hs : s ∈ d.scopes) {n : Named} (hn : n ∈ s.names) :
    d.Declares n.name :=
  ⟨⟨s, hs, n, hn, rfl⟩, (validate_eq_ok.1 valid s hs).1 _ (List.mem_map_of_mem hn)⟩

theorem declares_topLevel {name : String} (h : name ∈ [d.colours, d.spacing.name, d.radius.name]) :
    d.Declares name := by
  have named : (⟨name, name⟩ : Named) ∈ d.topLevel.names := List.mem_map_of_mem h
  exact declares_of_mem valid topLevel_mem_scopes named

theorem declares_group {g : ColourGroup} (hg : g ∈ d.groups) : d.Declares g.name :=
  declares_of_mem valid groupScope_mem_scopes (List.mem_map_of_mem hg)

theorem declares_colour {g : ColourGroup} (hg : g ∈ d.groups) {c : ColourConstant}
    (hc : c ∈ g.constants) : d.Declares c.name :=
  declares_of_mem valid (colourScope_mem_scopes hg) (List.mem_map_of_mem hc)

theorem declares_size {g : SizeGroup} (hg : g ∈ [d.spacing, d.radius]) {c : SizeConstant}
    (hc : c ∈ g.constants) : d.Declares c.name :=
  declares_of_mem valid (sizeScope_mem_scopes hg) (List.mem_map_of_mem hc)

end Declared

theorem Declares.inert {d : Declarations} {name : String} (h : d.Declares name) :
    Inert name.toList := inert_of_isIdentifier h.2

end Declarations

end DesignTokens.Swift
