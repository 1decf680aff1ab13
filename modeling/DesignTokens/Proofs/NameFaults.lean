import DesignTokens.Proofs.DeclaredTokens
import DesignTokens.Proofs.EscapedNames

/-!
Which names the check turns down, and which of them it reports. A name is turned down when it is no
identifier without its backticks, or is then the same as a name before it in its scope. The scopes
are gone through in order, and so are the names of a scope, and the first of those names is
reported together with the raw name it was made from.
-/
namespace DesignTokens.Swift

/-- A letter or an underscore, and behind it letters, digits and underscores. -/
def IdentifierText (bare : String) : Prop :=
  ∃ first rest, bare.toList = first :: rest ∧ (Text.isLetter first ∨ first = '_') ∧
    ∀ c ∈ rest, Text.isWordChar c ∨ c = '_'

/-- `bare` is the name without one pair of backticks around it. -/
def Unquotes (name bare : String) : Prop :=
  name = "\x60" ++ bare ++ "\x60" ∨
    (∀ inner, name ≠ "\x60" ++ inner ++ "\x60") ∧ bare = name

theorem isIdentifier_iff {bare : String} : isIdentifier bare ↔ IdentifierText bare := by
  rw [isIdentifier, IdentifierText]
  cases bare.toList with
  | nil => simp [isIdentifierChars]
  | cons first rest => simp [isIdentifierChars, isIdentifierStart, isIdentifierPart]

theorem unquotes_iff {name bare : String} : Unquotes name bare ↔ unquote name = bare := by
  have quoted (inner : String) : "\x60" ++ inner ++ "\x60" = quote inner := rfl
  simp only [Unquotes, quoted]
  constructor
  · rintro (rfl | ⟨plain, rfl⟩)
    · exact unquote_quote bare
    · refine unquote_eq_or.resolve_right fun ticks => plain (unquote bare) (String.toList_inj.1 ?_)
      rw [ticks, toList_quote]
  · rintro rfl
    by_cases ticks : ∃ inner, name = quote inner
    · obtain ⟨inner, rfl⟩ := ticks
      exact .inl (by rw [unquote_quote])
    · have plain := not_exists.1 ticks
      refine .inr ⟨plain, unquote_eq_or.resolve_right fun spelled => ?_⟩
      exact plain (unquote name) (String.toList_inj.1 (by rw [spelled, toList_quote]))

instance (bare : String) : Decidable (IdentifierText bare) :=
  decidable_of_iff (isIdentifier bare) isIdentifier_iff

instance (name bare : String) : Decidable (Unquotes name bare) :=
  decidable_of_iff (unquote name = bare) unquotes_iff.symm

namespace Scope

/-- What is wrong with a name of the scope that comes behind `earlier`. -/
inductive Fault (title : String) (earlier : List Named) (n : Named) : Failure → Prop where
  | invalid {bare : String} (stripped : Unquotes n.name bare) (unfit : ¬ IdentifierText bare) :
      Fault title earlier n (.invalidName n.name title n.source)
  | duplicate {bare : String} (stripped : Unquotes n.name bare) (fit : IdentifierText bare)
      (again : ∃ m ∈ earlier, Unquotes m.name bare) :
      Fault title earlier n (.duplicateName n.name title n.source)

def Rejects (earlier : List Named) (n : Named) : Prop :=
  ∃ bare, Unquotes n.name bare ∧
    (¬ IdentifierText bare ∨ ∃ m ∈ earlier, Unquotes m.name bare)

/-- The names are identifiers that differ from each other, their backticks aside. -/
def Sound (names : List Named) : Prop :=
  (∀ n ∈ names, ∃ bare, Unquotes n.name bare ∧ IdentifierText bare) ∧
    names.Pairwise fun a b => ∀ bare, Unquotes a.name bare → ¬ Unquotes b.name bare

/-- What is told of a name in a scope: the name itself and, as help, the raw name. -/
def Told (title : String) (n : Named) (failure : Failure) : Prop :=
  (failure.message =
      "Emission error: " ++
        ("'" ++ n.name ++ "'" ++ " in " ++ title ++ " is not a valid identifier") ∧
    failure.help = some ("generated from token name " ++ ("'" ++ n.source ++ "'"))) ∨
  (failure.message =
      "Emission error: " ++ ("duplicate identifier " ++ ("'" ++ n.name ++ "'") ++ " in " ++ title) ∧
    failure.help =
      some ("'" ++ n.source ++ "'" ++ " sanitizes to the same name as another token"))

section Faults
variable {title : String} {earlier past : List Named} {n : Named} {names rest : List Named}
  {failure : Failure}

theorem mem_bareNames {bare : String} :
    bare ∈ bareNames names ↔ ∃ m ∈ names, Unquotes m.name bare := by
  simp only [bareNames, List.mem_map, unquotes_iff]

theorem rejects_iff :
    Rejects earlier n ↔
      ¬ isIdentifier (unquote n.name) ∨ unquote n.name ∈ bareNames earlier := by
  simp only [Rejects, mem_bareNames, isIdentifier_iff, unquotes_iff, exists_eq_left']

theorem sound_iff :
    Sound names ↔ (∀ bare ∈ bareNames names, isIdentifier bare) ∧ (bareNames names).Nodup := by
  simp only [Sound, bareNames, List.forall_mem_map, List.Nodup, List.pairwise_map,
    isIdentifier_iff, unquotes_iff, exists_eq_left', forall_eq']
  simp only [ne_eq, eq_comm]

instance (names : List Named) : Decidable (Sound names) :=
  decidable_of_iff ((∀ bare ∈ bareNames names, isIdentifier bare) ∧ (bareNames names).Nodup)
    sound_iff.symm

theorem check_iff_sound {s : Scope} : s.check = .ok () ↔ Sound s.names :=
  check_eq_ok.trans sound_iff.symm

theorem Fault.imp (h : Fault title earlier n failure) (kept : ∀ m ∈ earlier, m ∈ past) :
    Fault title past n failure := by
  cases h with
  | invalid stripped unfit => exact .invalid stripped unfit
  | duplicate stripped fit again =>
      obtain ⟨m, hm, same⟩ := again
      exact .duplicate stripped fit ⟨m, kept m hm, same⟩

theorem Fault.unique {other : Failure} (h : Fault title earlier n failure)
    (h' : Fault title earlier n other) : failure = other := by
  cases h with
  | invalid stripped unfit =>
      obtain rfl := unquotes_iff.1 stripped
      cases h' with
      | invalid => rfl
      | duplicate stripped' fit _ => exact absurd (unquotes_iff.1 stripped' ▸ fit) unfit
  | duplicate stripped fit _ =>
      obtain rfl := unquotes_iff.1 stripped
      cases h' with
      | invalid stripped' unfit => exact absurd fit (unquotes_iff.1 stripped' ▸ unfit)
      | duplicate => rfl

theorem exists_fault_iff : (∃ failure, Fault title earlier n failure) ↔ Rejects earlier n := by
  constructor
  · intro h
    obtain ⟨_, fault⟩ := h
    cases fault with
    | invalid stripped unfit => exact ⟨_, stripped, .inl unfit⟩
    | duplicate stripped _ again => exact ⟨_, stripped, .inr again⟩
  · intro h
    obtain ⟨bare, stripped, rejected⟩ := h
    by_cases fit : IdentifierText bare
    · exact ⟨_, .duplicate stripped fit (rejected.resolve_left (not_not_intro fit))⟩
    · exact ⟨_, .invalid stripped fit⟩

theorem Fault.told (h : Fault title earlier n failure) : Told title n failure := by
  cases h with
  | invalid => exact .inl ⟨rfl, rfl⟩
  | duplicate => exact .inr ⟨rfl, rfl⟩

theorem checkNames_of_fault (h : Fault title past n failure) :
    checkNames title (bareNames past) (n :: rest) = .error failure := by
  cases h with
  | invalid stripped unfit =>
      rw [← unquotes_iff.1 stripped, ← isIdentifier_iff] at unfit
      simp [checkNames, unfit]
  | duplicate stripped fit again =>
      rw [← unquotes_iff.1 stripped, ← isIdentifier_iff] at fit
      rw [← unquotes_iff.1 stripped, ← mem_bareNames] at again
      simp [checkNames, fit, again]

theorem checkNames_of_not_rejects (h : ¬ Rejects past n) :
    checkNames title (bareNames past) (n :: rest) =
      checkNames title (bareNames (n :: past)) rest := by
  obtain ⟨fit, new⟩ := not_or.1 (mt rejects_iff.2 h)
  have next : bareNames (n :: past) = unquote n.name :: bareNames past := rfl
  simp [checkNames, not_not.1 fit, new, next]

/-- The names in front are those of the list up to here, the last of them first, and `past`. -/
theorem checkNames_eq_error :
    checkNames title (bareNames past) names = .error failure ↔
      ∃ earlier n later, names = earlier ++ n :: later ∧
        checkNames title (bareNames past) earlier = .ok () ∧
        Fault title (earlier.reverse ++ past) n failure := by
  induction names generalizing past with
  | nil => simp [checkNames]
  | cons m rest ih =>
      by_cases rejected : Rejects past m
      · obtain ⟨found, fault⟩ := exists_fault_iff.2 rejected
        rw [checkNames_of_fault fault]
        constructor
        · rintro ⟨⟩
          exact ⟨[], m, rest, rfl, rfl, fault⟩
        · intro h
          obtain ⟨earlier, n, later, split, passed, other⟩ := h
          cases earlier with
          | nil =>
              obtain ⟨rfl, rfl⟩ := List.cons.inj split
              rw [fault.unique other]
          | cons first before =>
              obtain ⟨rfl, rfl⟩ := List.cons.inj split
              rw [checkNames_of_fault fault] at passed
              cases passed
      · rw [checkNames_of_not_rejects rejected, ih]
        constructor
        · intro h
          obtain ⟨earlier, n, later, rfl, passed, fault⟩ := h
          refine ⟨m :: earlier, n, later, rfl, ?_, by simpa using fault⟩
          rwa [checkNames_of_not_rejects rejected]
        · intro h
          obtain ⟨earlier, n, later, split, passed, fault⟩ := h
          cases earlier with
          | nil =>
              obtain ⟨rfl, rfl⟩ := List.cons.inj split
              exact absurd (exists_fault_iff.1 ⟨failure, fault⟩) rejected
          | cons first before =>
              obtain ⟨rfl, rfl⟩ := List.cons.inj split
              rw [checkNames_of_not_rejects rejected] at passed
              exact ⟨before, n, later, rfl, passed, by simpa using fault⟩

theorem check_eq_error {s : Scope} :
    s.check = .error failure ↔
      ∃ earlier n later, s.names = earlier ++ n :: later ∧ Sound earlier ∧
        Fault s.title earlier n failure := by
  have passes (earlier : List Named) :
      checkNames s.title (bareNames []) earlier = .ok () ↔ Sound earlier :=
    check_iff_sound (s := ⟨s.title, earlier⟩)
  have backwards (earlier : List Named) (n : Named) :
      Fault s.title (earlier.reverse ++ []) n failure ↔ Fault s.title earlier n failure :=
    ⟨fun h => h.imp (by simp), fun h => h.imp (by simp)⟩
  have begins : s.check = checkNames s.title (bareNames []) s.names := rfl
  simp only [begins, checkNames_eq_error, passes, backwards]

/-- Names are sound unless one of them is rejected behind those before it. -/
theorem not_sound_iff :
    ¬ Sound names ↔ ∃ earlier n later, names = earlier ++ n :: later ∧ Rejects earlier n := by
  constructor
  · intro unsound
    cases checked : check ⟨"", names⟩ with
    | ok => exact absurd (check_iff_sound.1 checked) unsound
    | error failure =>
        obtain ⟨earlier, n, later, split, -, fault⟩ := check_eq_error.1 checked
        exact ⟨earlier, n, later, split, exists_fault_iff.1 ⟨failure, fault⟩⟩
  · intro h sound
    obtain ⟨earlier, n, later, rfl, bare, stripped, rejected⟩ := h
    obtain ⟨fit, distinct⟩ := sound
    cases rejected with
    | inl unfit =>
        obtain ⟨_, same, fit⟩ := fit n (by simp)
        rw [unquotes_iff] at stripped same
        exact unfit (stripped ▸ same ▸ fit)
    | inr again =>
        obtain ⟨m, hm, same⟩ := again
        exact (List.pairwise_append.1 distinct).2.2 m hm n List.mem_cons_self bare same stripped

/-- A word and its escaped spelling do not go together. -/
theorem not_sound_of_spellings {word : String} (plain : word ∈ names.map Named.name)
    (escaped : "\x60" ++ word ++ "\x60" ∈ names.map Named.name) : ¬ Sound names := by
  obtain ⟨n, hn, rfl⟩ := List.mem_map.1 plain
  obtain ⟨m, hm, escaped⟩ := List.mem_map.1 escaped
  intro sound
  obtain ⟨fit, distinct⟩ := sound_iff.1 sound
  have bare : unquote m.name = n.name := unquotes_iff.1 (.inl escaped)
  have identifier : isIdentifier n.name := bare ▸ fit _ (List.mem_map_of_mem hm)
  have same : unquote m.name = unquote n.name :=
    bare.trans (unquote_of_isIdentifier identifier).symm
  obtain rfl := List.inj_on_of_nodup_map distinct hm hn same
  have longer : m.name.toList.length = (quote m.name).toList.length :=
    congrArg (·.toList.length) escaped
  simp only [toList_quote, List.length_append, List.length_cons] at longer
  omega

end Faults

end Scope

namespace Declarations

/-- The name is the first one in the scopes that is at fault. -/
def FirstFault (scopes : List Scope) (n : Named) (failure : Failure) : Prop :=
  ∃ before s after, scopes = before ++ s :: after ∧ (∀ t ∈ before, Scope.Sound t.names) ∧
    ∃ earlier later, s.names = earlier ++ n :: later ∧ Scope.Sound earlier ∧
      Scope.Fault s.title earlier n failure

theorem validate_eq_error {d : Declarations} {failure : Failure} :
    d.validate = .error failure ↔ ∃ n, FirstFault d.scopes n failure := by
  simp only [validate, forM_eq_error, Scope.check_iff_sound, Scope.check_eq_error]
  constructor
  · intro h
    obtain ⟨before, s, after, split, sound, earlier, n, later, inside⟩ := h
    exact ⟨n, before, s, after, split, sound, earlier, later, inside⟩
  · intro h
    obtain ⟨n, before, s, after, split, sound, earlier, later, inside⟩ := h
    exact ⟨before, s, after, split, sound, earlier, n, later, inside⟩

theorem exists_validate_error_iff {d : Declarations} :
    (∃ failure, d.validate = .error failure) ↔ ∃ s ∈ d.scopes, ¬ Scope.Sound s.names := by
  have passes : d.validate = .ok () ↔ ∀ s ∈ d.scopes, Scope.Sound s.names := by
    simp only [validate, forM_eq_ok, Scope.check_iff_sound]
  cases checked : d.validate with
  | ok =>
      simpa using passes.1 checked
  | error failure =>
      have fails : ¬ ∀ s ∈ d.scopes, Scope.Sound s.names := by
        rw [← passes, checked]
        simp
      simpa using fails

section Rejected
variable {config : Config} {colours : List MergedEntry} {spacing radius : List Size}
  {d : Declarations}

/-- Declarations are turned down exactly for a name that is no identifier or comes a second time in
its scope, and the first such name is what the failure reports. The scopes are the top level, the
groups of colours, the colours of each group, the spacings and the radii. -/
theorem build_reports_first_fault (arranged : arrange config colours spacing radius = d) :
    let scopes : List Scope :=
      [⟨"the top level", [⟨d.colours, d.colours⟩, ⟨d.spacing.name, d.spacing.name⟩,
          ⟨d.radius.name, d.radius.name⟩]⟩,
        ⟨d.colours, d.groups.map fun g => ⟨g.name, g.source⟩⟩] ++
      (d.groups.map fun g => ⟨g.source, g.constants.map fun c => ⟨c.name, c.source⟩⟩) ++
      [⟨d.spacing.name, d.spacing.constants.map fun c => ⟨c.name, c.source⟩⟩,
        ⟨d.radius.name, d.radius.constants.map fun c => ⟨c.name, c.source⟩⟩]
    d.Records config colours spacing radius ∧
      (∀ failure, build config colours spacing radius = .error failure ↔
        ∃ n, FirstFault scopes n failure) ∧
      (∀ n failure, FirstFault scopes n failure →
        ∃ s ∈ scopes, n ∈ s.names ∧ Scope.Told s.title n failure) ∧
      ((∃ failure, build config colours spacing radius = .error failure) ↔
        ∃ s ∈ scopes, ∃ earlier n later, s.names = earlier ++ n :: later ∧
          Scope.Rejects earlier n) ∧
      ∀ s ∈ scopes, ∀ word, word ∈ s.names.map Named.name →
        "\x60" ++ word ++ "\x60" ∈ s.names.map Named.name →
          ∃ failure, build config colours spacing radius = .error failure := by
  intro scopes
  have listed : scopes = d.scopes := rfl
  rw [listed]
  subst arranged
  refine ⟨records_arrange config colours spacing radius, ?_, ?_, ?_, ?_⟩
  · intro failure
    rw [build_eq_error, validate_eq_error]
  · intro n failure first
    obtain ⟨before, s, after, split, -, earlier, later, inside, -, fault⟩ := first
    refine ⟨s, ?_, ?_, fault.told⟩
    · rw [split]
      exact List.mem_append_right before List.mem_cons_self
    · rw [inside]
      exact List.mem_append_right earlier List.mem_cons_self
  · simp only [build_eq_error, exists_validate_error_iff, Scope.not_sound_iff]
  · intro s hs word plain escaped
    simp only [build_eq_error, exists_validate_error_iff]
    exact ⟨s, hs, Scope.not_sound_of_spellings plain escaped⟩

end Rejected

/-- One entry, whose colours do not matter. -/
def entryNamed (category token : String) : List MergedEntry :=
  [⟨⟨category, token⟩, .ofRGB 0 0 0, .ofRGB 9 9 9⟩]

/-- A word in two spellings at the top level, reported although a later scope has a name that is no
identifier; that name alone; a colour reported before a spacing; and two radii of one name. -/
theorem build_reports_first_fault_spellings :
    build { output := { colours := "class", spacing := "\x60class\x60" } }
        (entryNamed "" "fill") [] [] =
      .error (.duplicateName "\x60class\x60" "the top level" "\x60class\x60") ∧
    (∃ failure, build {} (entryNamed "" "fill") [] [] = .error failure) ∧
    build {} (entryNamed "text" "$") [⟨"%", .zero⟩] [] =
      .error (.invalidName "$" "text" "$") ∧
    build {} [] [⟨"8", .zero⟩] [⟨"Small", .zero⟩, ⟨"small", .zero⟩] =
      .error (.duplicateName "small" "TokenRadius" "small") := by
  refine ⟨?_, ?_, ?_, ?_⟩
  · obtain ⟨-, reports, -⟩ := build_reports_first_fault (Eq.refl
      (arrange { output := { colours := "class", spacing := "\x60class\x60" } }
        (entryNamed "" "fill") [] []))
    refine (reports _).2 ⟨⟨"\x60class\x60", "\x60class\x60"⟩, [], _, _, rfl, by simp,
      [⟨"class", "class"⟩], _, rfl, by decide, ?_⟩
    exact .duplicate (.inl rfl) (by decide : IdentifierText "class") (by decide)
  · obtain ⟨-, -, -, rejects, -⟩ :=
      build_reports_first_fault (Eq.refl (arrange {} (entryNamed "" "fill") [] []))
    refine rejects.2 ⟨_, List.mem_cons_of_mem _ List.mem_cons_self, [], ⟨"", ""⟩, [], ?_, ?_⟩
    · decide +kernel
    · exact ⟨"", by decide, .inl (by decide)⟩
  · have arranged : arrange {} (entryNamed "text" "$") [⟨"%", .zero⟩] [] =
        ⟨"TokenColors", [⟨"Text", "text", [⟨"$", "$", .ofRGB 0 0 0, .ofRGB 9 9 9⟩]⟩],
          ⟨"TokenSpacing", [⟨"%", "%", .zero⟩]⟩, ⟨"TokenRadius", []⟩⟩ := by decide +kernel
    obtain ⟨-, reports, -⟩ := build_reports_first_fault arranged
    refine (reports _).2 ⟨⟨"$", "$"⟩, [_, _], ⟨"text", _⟩, _, rfl, by decide, [], [], rfl,
      by decide, ?_⟩
    exact .invalid (by decide : Unquotes "$" "$") (by decide)
  · have sorted : Size.sort [⟨"Small", .zero⟩, ⟨"small", .zero⟩] =
        [⟨"Small", .zero⟩, ⟨"small", .zero⟩] :=
      Size.sort_eq_iff.2 ⟨by decide +kernel, by decide +kernel⟩
    have arranged : arrange {} [] [⟨"8", .zero⟩] [⟨"Small", .zero⟩, ⟨"small", .zero⟩] =
        ⟨"TokenColors", [], ⟨"TokenSpacing", [⟨"_8", "8", .zero⟩]⟩,
          ⟨"TokenRadius", [⟨"small", "Small", .zero⟩, ⟨"small", "small", .zero⟩]⟩⟩ := by
      rw [arrange, sizeGroup, sizeGroup, sorted]
      decide +kernel
    obtain ⟨-, reports, -⟩ := build_reports_first_fault arranged
    refine (reports _).2 ⟨⟨"small", "small"⟩, [_, _, _], ⟨"TokenRadius", _⟩, [], rfl, by decide,
      [⟨"small", "Small"⟩], [], rfl, by decide, ?_⟩
    exact .duplicate (by decide : Unquotes "small" "small") (by decide) (by decide)

end Declarations

end DesignTokens.Swift
