import DesignTokens.Proofs.HexText
import DesignTokens.Proofs.ThemeNames

/-!
The join of two themes as an inner join. It is said in terms of the entries of the two themes alone,
in whatever order they come and however often a name is repeated: the last entry with a name counts.
Joining gives exactly the list of entries and the two lists of dropped names that this describes, or
complains about the first name in order with a value that spells no colour.
-/
namespace DesignTokens

namespace Merged

/-- The join seen from the other side. -/
def swap (m : Merged) : Merged where
  entries := m.entries.map fun entry => { entry with light := entry.dark, dark := entry.light }
  lightOnly := m.darkOnly
  darkOnly := m.lightOnly

theorem names_swap (m : Merged) : m.swap.names = m.names := by
  simp [names, swap]

end Merged

namespace Theme

def Defines (t : Theme) (name : TokenName) : Prop := ∃ entry ∈ t.entries, entry.name = name

/-- The value under a name is that of the last entry with this name. -/
def Gives (t : Theme) (name : TokenName) (value : String) : Prop :=
  ∃ before entry after, t.entries = before ++ entry :: after ∧ entry.name = name ∧
    entry.leaf.value = value ∧ ∀ later ∈ after, later.name ≠ name

def Spells (t : Theme) (name : TokenName) (colour : Colour) : Prop :=
  ∃ value, t.Gives name value ∧ Colour.ofHex value .literal = .ok colour

def Misspells (t : Theme) (name : TokenName) (value : String) (fault : HexFault) : Prop :=
  t.Gives name value ∧ Colour.ofHex value .literal = .error (.badHex value fault .literal)

/-- What is wrong with a name that both themes define. The dark value is only looked at when
nothing is wrong with the light one. -/
inductive Complaint (light dark : Theme) (name : TokenName) : Variant → Failure → Prop
  | light {value : String} {fault : HexFault} (both : dark.Defines name)
      (misspelled : light.Misspells name value fault) :
      Complaint light dark name .light
        (.badHex value fault (.themed .light name.category name.token))
  | dark {colour : Colour} {value : String} {fault : HexFault} (spelled : light.Spells name colour)
      (misspelled : dark.Misspells name value fault) :
      Complaint light dark name .dark
        (.badHex value fault (.themed .dark name.category name.token))

structure InnerJoin (light dark : Theme) (m : Merged) : Prop where
  ascending : m.names.Pairwise (· < ·)
  lightAscending : m.lightOnly.Pairwise (· < ·)
  darkAscending : m.darkOnly.Pairwise (· < ·)
  common : ∀ name, name ∈ m.names ↔ light.Defines name ∧ dark.Defines name
  lightOnly : ∀ name, name ∈ m.lightOnly ↔ light.Defines name ∧ ¬ dark.Defines name
  darkOnly : ∀ name, name ∈ m.darkOnly ↔ dark.Defines name ∧ ¬ light.Defines name
  colours : ∀ entry ∈ m.entries,
    light.Spells entry.name entry.light ∧ dark.Spells entry.name entry.dark

/-- Two pairs of themes that define the same names and differ at most in values that only one side
of a pair has. -/
structure AgreeWhereJoined (light dark light' dark' : Theme) : Prop where
  lights : ∀ name, light.Defines name ↔ light'.Defines name
  darks : ∀ name, dark.Defines name ↔ dark'.Defines name
  values : ∀ name, light.Defines name → dark.Defines name → ∀ value,
    (light.Gives name value ↔ light'.Gives name value) ∧
      (dark.Gives name value ↔ dark'.Gives name value)

section OneSide
variable {t : Theme} {name : TokenName}

theorem find?_byName_eq_some {value : String} :
    t.byName.find? name = some value ↔ t.Gives name value := by
  rw [byName, Table.find?_ofList_map_eq_some]
  constructor
  · intro h
    obtain ⟨before, entry, after, entries, others, own⟩ := h
    obtain ⟨named, valued⟩ := Prod.mk.inj own
    exact ⟨before, entry, after, entries, named, valued, others⟩
  · intro h
    obtain ⟨before, entry, after, entries, named, valued, others⟩ := h
    exact ⟨before, entry, after, entries, others, Prod.ext named valued⟩

theorem mem_keys_byName : name ∈ t.byName.keys ↔ t.Defines name := by
  rw [byName, Table.mem_keys_ofList, List.map_map]
  simp only [List.mem_map]
  rfl

theorem gives_unique {a b : String} (ha : t.Gives name a) (hb : t.Gives name b) : a = b :=
  Option.some.inj ((find?_byName_eq_some.2 ha).symm.trans (find?_byName_eq_some.2 hb))

theorem exists_gives_iff : (∃ value, t.Gives name value) ↔ t.Defines name := by
  simp only [← find?_byName_eq_some, ← mem_keys_byName, Table.mem_keys]

theorem spells_unique {a b : Colour} (ha : t.Spells name a) (hb : t.Spells name b) : a = b := by
  obtain ⟨value, gives, spelled⟩ := ha
  obtain ⟨value', gives', spelled'⟩ := hb
  obtain rfl := gives_unique gives gives'
  exact Except.ok.inj (spelled.symm.trans spelled')

theorem Spells.defines {colour : Colour} (h : t.Spells name colour) : t.Defines name := by
  obtain ⟨value, gives, -⟩ := h
  exact exists_gives_iff.1 ⟨value, gives⟩

theorem Spells.not_misspells {colour : Colour} {value : String} {fault : HexFault}
    (h : t.Spells name colour) : ¬ t.Misspells name value fault := by
  intro wrong
  obtain ⟨value', gives, spelled⟩ := h
  obtain rfl := gives_unique gives wrong.1
  cases spelled.symm.trans wrong.2

theorem colourOf_eq_ok {variant : Variant} {value : String} {colour : Colour} :
    colourOf variant name value = .ok colour ↔ Colour.ofHex value .literal = .ok colour :=
  Colour.ofHex_eq_ok_iff_literal

theorem colourOf_eq_error {variant : Variant} {value : String} {failure : Failure} :
    colourOf variant name value = .error failure ↔
      ∃ fault, Colour.ofHex value .literal = .error (.badHex value fault .literal) ∧
        failure = .badHex value fault (.themed variant name.category name.token) :=
  Colour.ofHex_eq_error_iff_literal

end OneSide

section Joined
variable {light dark : Theme} {m : Merged}

theorem InnerJoin.mem_entries (h : InnerJoin light dark m) {entry : MergedEntry} :
    entry ∈ m.entries ↔
      light.Spells entry.name entry.light ∧ dark.Spells entry.name entry.dark := by
  constructor
  · exact h.colours entry
  · intro spelled
    have named := (h.common entry.name).2 ⟨spelled.1.defines, spelled.2.defines⟩
    obtain ⟨other, hother, same⟩ := List.mem_map.1 named
    have spelled' := h.colours other hother
    rw [same] at spelled'
    have lights := spells_unique spelled'.1 spelled.1
    have darks := spells_unique spelled'.2 spelled.2
    obtain rfl : other = entry := by
      cases other
      cases entry
      cases same
      cases lights
      cases darks
      rfl
    exact hother

theorem InnerJoin.unique {m' : Merged} (h : InnerJoin light dark m)
    (h' : InnerJoin light dark m') : m = m' := by
  have entries : m.entries = m'.entries := by
    apply Table.eq_of_ascending_on MergedEntry.name
    · exact List.pairwise_map.1 h.ascending
    · exact List.pairwise_map.1 h'.ascending
    · intro entry
      rw [h.mem_entries, h'.mem_entries]
  have lightOnly : m.lightOnly = m'.lightOnly := by
    apply Table.eq_of_ascending h.lightAscending h'.lightAscending
    intro name
    rw [h.lightOnly, h'.lightOnly]
  have darkOnly : m.darkOnly = m'.darkOnly := by
    apply Table.eq_of_ascending h.darkAscending h'.darkAscending
    intro name
    rw [h.darkOnly, h'.darkOnly]
  cases m
  cases m'
  cases entries
  cases lightOnly
  cases darkOnly
  rfl

theorem InnerJoin.swap (h : InnerJoin light dark m) : InnerJoin dark light m.swap where
  ascending := m.names_swap ▸ h.ascending
  lightAscending := h.darkAscending
  darkAscending := h.lightAscending
  common name := by rw [m.names_swap, h.common, and_comm]
  lightOnly := h.darkOnly
  darkOnly := h.lightOnly
  colours entry hentry := by
    obtain ⟨other, hother, rfl⟩ := List.mem_map.1 hentry
    exact (h.colours other hother).symm

theorem innerJoin_of_merge (h : light.merge dark = .ok m) : InnerJoin light dark m := by
  obtain ⟨-, lightOnly, darkOnly⟩ := merge_eq_ok.1 h
  have names := names_of_merge h
  rw [namesOnlyIn_eq] at lightOnly darkOnly
  constructor
  · rw [names]
    exact light.byName.ascending_keys.filter _
  · rw [lightOnly]
    exact light.byName.ascending_keys.filter _
  · rw [darkOnly]
    exact dark.byName.ascending_keys.filter _
  · intro name
    rw [names, List.mem_filter, decide_eq_true_eq, mem_keys_byName, mem_keys_byName]
  · intro name
    rw [lightOnly, List.mem_filter, decide_eq_true_eq, mem_keys_byName, mem_keys_byName]
  · intro name
    rw [darkOnly, List.mem_filter, decide_eq_true_eq, mem_keys_byName, mem_keys_byName]
  · intro entry hentry
    obtain ⟨l, d, inLight, inDark, hl, hd⟩ := (mem_entries_of_merge h entry).1 hentry
    exact ⟨⟨l, find?_byName_eq_some.1 inLight, colourOf_eq_ok.1 hl⟩,
      d, find?_byName_eq_some.1 inDark, colourOf_eq_ok.1 hd⟩

theorem InnerJoin.merge_succeeds (h : InnerJoin light dark m) :
    ∃ m', light.merge dark = .ok m' := by
  rw [Theme.merge_succeeds]
  intro name l d inLight inDark
  have lights := find?_byName_eq_some.1 inLight
  have darks := find?_byName_eq_some.1 inDark
  have named := (h.common name).2 ⟨exists_gives_iff.1 ⟨l, lights⟩, exists_gives_iff.1 ⟨d, darks⟩⟩
  obtain ⟨entry, hentry, rfl⟩ := List.mem_map.1 named
  obtain ⟨⟨l', lights', spelledLight⟩, d', darks', spelledDark⟩ := h.colours entry hentry
  obtain rfl := gives_unique lights lights'
  obtain rfl := gives_unique darks darks'
  exact ⟨⟨_, colourOf_eq_ok.2 spelledLight⟩, _, colourOf_eq_ok.2 spelledDark⟩

theorem merge_eq_ok_iff_innerJoin : light.merge dark = .ok m ↔ InnerJoin light dark m := by
  constructor
  · exact innerJoin_of_merge
  · intro h
    obtain ⟨m', merged⟩ := h.merge_succeeds
    rw [merged, h.unique (innerJoin_of_merge merged)]

end Joined

section Failing
variable {light dark : Theme}

theorem mergeEntry_eq_error {name : TokenName} {l d : String} {failure : Failure} :
    mergeEntry name l d = .error failure ↔
      colourOf .light name l = .error failure ∨
        ∃ colour, colourOf .light name l = .ok colour ∧ colourOf .dark name d = .error failure := by
  rw [mergeEntry, bind_eq_error]
  simp only [bind_pure_eq_error]

/-- Joining one name fails with a complaint about it. -/
theorem complaint_iff {name : TokenName} {failure : Failure} :
    (∃ variant, Complaint light dark name variant failure) ↔
      ∃ l d, (name, l, d) ∈ commonValues light.byName dark.byName ∧
        mergeEntry name l d = .error failure := by
  simp only [mem_commonValues, find?_byName_eq_some, mergeEntry_eq_error, colourOf_eq_error,
    colourOf_eq_ok]
  constructor
  · intro h
    obtain ⟨variant, complaint⟩ := h
    cases complaint with
    | light both misspelled =>
        obtain ⟨d, darks⟩ := exists_gives_iff.2 both
        exact ⟨_, d, ⟨misspelled.1, darks⟩, .inl ⟨_, misspelled.2, rfl⟩⟩
    | dark spelled misspelled =>
        obtain ⟨l, lights, colour⟩ := spelled
        exact ⟨l, _, ⟨lights, misspelled.1⟩, .inr ⟨_, colour, _, misspelled.2, rfl⟩⟩
  · intro h
    obtain ⟨l, d, ⟨lights, darks⟩, ⟨fault, wrong, rfl⟩ | ⟨colour, spelled, fault, wrong, rfl⟩⟩ := h
    · exact ⟨.light, .light (exists_gives_iff.1 ⟨d, darks⟩) ⟨lights, wrong⟩⟩
    · exact ⟨.dark, .dark ⟨l, lights, spelled⟩ ⟨darks, wrong⟩⟩

theorem ascending_commonValues (light dark : Table TokenName String) :
    (commonValues light dark).Pairwise fun a b => a.1 < b.1 := by
  apply List.pairwise_map.1
  rw [names_of_commonValues]
  exact light.ascending_keys.filter _

theorem merge_eq_error {failure : Failure} :
    light.merge dark = .error failure ↔
      ∃ name variant, Complaint light dark name variant failure ∧
        ∀ other < name, ∀ variant failure, ¬ Complaint light dark other variant failure := by
  have joined : light.merge dark = .error failure ↔
      (commonValues light.byName dark.byName).mapM (fun e => mergeEntry e.1 e.2.1 e.2.2) =
        .error failure := bind_pure_eq_error
  have asymm (a b : TokenName × String × String) : a.1 < b.1 → ¬ b.1 < a.1 :=
    Table.lt_asymm a.1 b.1
  rw [joined, mapM_eq_error, exists_split_iff asymm (ascending_commonValues _ _)]
  constructor
  · intro h
    obtain ⟨⟨name, l, d⟩, common, before, fails⟩ := h
    obtain ⟨variant, complaint⟩ := complaint_iff.2 ⟨l, d, common, fails⟩
    refine ⟨name, variant, complaint, ?_⟩
    intro other earlier variant failure complaint
    obtain ⟨l, d, common, fails⟩ := complaint_iff.1 ⟨variant, complaint⟩
    obtain ⟨entry, joins⟩ := before _ common earlier
    cases joins.symm.trans fails
  · intro h
    obtain ⟨name, variant, complaint, first⟩ := h
    obtain ⟨l, d, common, fails⟩ := complaint_iff.1 ⟨variant, complaint⟩
    refine ⟨(name, l, d), common, ?_, fails⟩
    rintro ⟨other, l, d⟩ common earlier
    cases joins : mergeEntry other l d with
    | ok entry => exact ⟨entry, rfl⟩
    | error failure =>
        obtain ⟨variant, complaint⟩ := complaint_iff.2 ⟨l, d, common, joins⟩
        exact absurd complaint (first other earlier variant failure)

/-- Values that only one of two themes has do not bear on the join. -/
theorem merge_eq_of_agree {light' dark' : Theme} (h : AgreeWhereJoined light dark light' dark') :
    light'.merge dark' = light.merge dark := by
  have lights : light'.byName.keys = light.byName.keys := by
    apply Table.eq_of_ascending (Table.ascending_keys _) (Table.ascending_keys _)
    intro name
    rw [mem_keys_byName, mem_keys_byName, h.lights]
  have darks : dark'.byName.keys = dark.byName.keys := by
    apply Table.eq_of_ascending (Table.ascending_keys _) (Table.ascending_keys _)
    intro name
    rw [mem_keys_byName, mem_keys_byName, h.darks]
  have common : commonValues light'.byName dark'.byName =
      commonValues light.byName dark.byName := by
    apply Table.eq_of_ascending_on Prod.fst (ascending_commonValues _ _)
      (ascending_commonValues _ _)
    rintro ⟨name, l, d⟩
    simp only [mem_commonValues, find?_byName_eq_some]
    constructor
    · intro given
      have values := h.values name ((h.lights name).2 (exists_gives_iff.1 ⟨l, given.1⟩))
        ((h.darks name).2 (exists_gives_iff.1 ⟨d, given.2⟩))
      exact ⟨(values l).1.2 given.1, (values d).2.2 given.2⟩
    · intro given
      have values := h.values name (exists_gives_iff.1 ⟨l, given.1⟩)
        (exists_gives_iff.1 ⟨d, given.2⟩)
      exact ⟨(values l).1.1 given.1, (values d).2.1 given.2⟩
  simp only [merge, common, namesOnlyIn_eq, lights, darks]

/-- Joining two themes gives their inner join, the same from either side, or complains about the
first name whose light or dark value spells no colour. -/
theorem merge_joins (light dark : Theme) :
    (∀ m, light.merge dark = .ok m ↔ InnerJoin light dark m) ∧
      ((∃ failure, light.merge dark = .error failure) ↔
        ∃ name, light.Defines name ∧ dark.Defines name ∧
          ∃ value fault, light.Misspells name value fault ∨ dark.Misspells name value fault) ∧
      (∀ failure, light.merge dark = .error failure ↔
        ∃ name variant, Complaint light dark name variant failure ∧
          failure.help = some ("unable to parse " ++ variant.name ++ " version of " ++
            name.category ++ "." ++ name.token) ∧
          ∀ other < name, ∀ variant failure, ¬ Complaint light dark other variant failure) ∧
      (∀ m, light.merge dark = .ok m → dark.merge light = .ok m.swap) ∧
      ∀ light' dark', AgreeWhereJoined light dark light' dark' →
        light'.merge dark' = light.merge dark := by
  refine ⟨fun _ => merge_eq_ok_iff_innerJoin, ?_, ?_, ?_, fun _ _ => merge_eq_of_agree⟩
  · constructor
    · intro h
      obtain ⟨failure, h⟩ := h
      obtain ⟨name, variant, complaint, -⟩ := merge_eq_error.1 h
      cases complaint with
      | light both misspelled =>
          exact ⟨name, exists_gives_iff.1 ⟨_, misspelled.1⟩, both, _, _, .inl misspelled⟩
      | dark spelled misspelled =>
          exact ⟨name, spelled.defines, exists_gives_iff.1 ⟨_, misspelled.1⟩, _, _,
            .inr misspelled⟩
    · intro h
      obtain ⟨name, inLight, inDark, value, fault, misspelled⟩ := h
      cases joined : light.merge dark with
      | error failure => exact ⟨failure, rfl⟩
      | ok m =>
          have join := innerJoin_of_merge joined
          obtain ⟨entry, hentry, rfl⟩ := List.mem_map.1 ((join.common name).2 ⟨inLight, inDark⟩)
          have spelled := join.colours entry hentry
          cases misspelled with
          | inl wrong => exact absurd wrong spelled.1.not_misspells
          | inr wrong => exact absurd wrong spelled.2.not_misspells
  · intro failure
    rw [merge_eq_error]
    refine exists_congr fun name => exists_congr fun variant => ?_
    constructor
    · intro h
      refine ⟨h.1, ?_, h.2⟩
      cases h.1 with
      | light => rfl
      | dark => rfl
    · exact fun h => ⟨h.1, h.2.2⟩
  · intro m h
    exact merge_eq_ok_iff_innerJoin.2 (innerJoin_of_merge h).swap

/-- A light theme in no order, with a name that comes up twice. -/
def repetitiveTheme : Theme where
  variant := .light
  entries := [⟨"Text", "y", ⟨"color", "#eeeeee"⟩⟩, ⟨"Text", "x", ⟨"color", "white"⟩⟩,
    ⟨"Icon", "z", ⟨"color", "none"⟩⟩, ⟨"Text", "x", ⟨"color", "#010203"⟩⟩]

def darkTheme (value other : String) : Theme where
  variant := .dark
  entries := [⟨"Text", "x", ⟨"color", value⟩⟩, ⟨"Text", "w", ⟨"color", other⟩⟩]

theorem agreeWhereJoined_darkTheme (value other other' : String) :
    AgreeWhereJoined repetitiveTheme (darkTheme value other) repetitiveTheme
      (darkTheme value other') where
  lights _ := Iff.rfl
  darks name := by simp [Defines, darkTheme, ThemeEntry.name]
  values name inLight inDark given := by
    obtain rfl : name = ⟨"Text", "x"⟩ := by
      simp only [Defines, darkTheme, ThemeEntry.name, List.mem_cons, List.not_mem_nil, or_false,
        exists_eq_or_imp, exists_eq_left] at inDark
      rcases inDark with rfl | rfl
      · rfl
      · revert inLight
        simp [Defines, repetitiveTheme, ThemeEntry.name]
    have gives (other : String) : (darkTheme value other).Gives ⟨"Text", "x"⟩ value :=
      ⟨[], _, _, rfl, rfl, rfl, by simp [ThemeEntry.name]⟩
    refine ⟨Iff.rfl, fun h => ?_, fun h => ?_⟩
    · exact gives_unique (gives other) h ▸ gives other'
    · exact gives_unique (gives other') h ▸ gives other

/-- The last entry of a name is joined, and nothing else of what its theme holds matters. -/
theorem merge_joins_repetitive :
    repetitiveTheme.InnerJoin (darkTheme "#040506" "black")
        ⟨[⟨⟨"Text", "x"⟩, .ofRGB 1 2 3, .ofRGB 4 5 6⟩], [⟨"Icon", "z"⟩, ⟨"Text", "y"⟩],
          [⟨"Text", "w"⟩]⟩ ∧
      (darkTheme "#040506" "black").merge repetitiveTheme =
        .ok ⟨[⟨⟨"Text", "x"⟩, .ofRGB 4 5 6, .ofRGB 1 2 3⟩], [⟨"Text", "w"⟩],
          [⟨"Icon", "z"⟩, ⟨"Text", "y"⟩]⟩ ∧
      repetitiveTheme.merge (darkTheme "#040506" "grey") =
        repetitiveTheme.merge (darkTheme "#040506" "black") := by
  have joined : repetitiveTheme.merge (darkTheme "#040506" "black") =
      .ok ⟨[⟨⟨"Text", "x"⟩, .ofRGB 1 2 3, .ofRGB 4 5 6⟩],
        [⟨"Icon", "z"⟩, ⟨"Text", "y"⟩], [⟨"Text", "w"⟩]⟩ := by decide +kernel
  obtain ⟨join, -, -, swapped, agree⟩ := merge_joins repetitiveTheme (darkTheme "#040506" "black")
  exact ⟨(join _).1 joined, swapped _ joined,
    agree _ _ (agreeWhereJoined_darkTheme "#040506" "black" "grey")⟩

end Failing

end Theme

end DesignTokens
