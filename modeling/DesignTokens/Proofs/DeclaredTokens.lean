import DesignTokens.Proofs.Arrangement
import Mathlib.Data.List.Perm.Basic
import Mathlib.Data.Set.Function

/-!
What declarations record of the tokens. Every constant stands for one token with its colours or its
value as they came in, colours in the group of their category, and everything is in ascending order.
Where the names pass the check, the names of a scope tell its tokens apart.
-/
namespace DesignTokens

/-- Distinct keys that cover a list take it apart. -/
theorem flatMap_filter_perm {α κ : Type} [DecidableEq κ] {f : α → κ} {keys : List κ}
    (distinct : keys.Nodup) {xs : List α} (covered : ∀ x ∈ xs, f x ∈ keys) :
    (keys.flatMap fun k => xs.filter fun x => f x = k).Perm xs := by
  induction keys generalizing xs with
  | nil =>
      cases xs with
      | nil => exact .nil
      | cons x rest => exact absurd (covered x List.mem_cons_self) List.not_mem_nil
  | cons k rest ih =>
      obtain ⟨new, distinct⟩ := List.nodup_cons.1 distinct
      let others := xs.filter fun x => !decide (f x = k)
      have remaining : ∀ x ∈ others, f x ∈ rest := by
        intro x hx
        obtain ⟨hx, other⟩ := List.mem_filter.1 hx
        exact (List.mem_cons.1 (covered x hx)).resolve_left (by simpa using other)
      -- what goes to `k` goes to no later key, since the keys are distinct
      have later : (rest.flatMap fun k' => xs.filter fun x => f x = k') =
          rest.flatMap fun k' => others.filter fun x => f x = k' := by
        refine List.flatMap_congr ?_
        intro k' hk'
        rw [List.filter_filter]
        refine List.filter_congr ?_
        intro x _
        have apart : k' ≠ k := by
          rintro rfl
          exact new hk'
        by_cases same : f x = k'
        · simp [same, apart]
        · simp [same]
      rw [List.flatMap_cons, later]
      exact ((ih distinct remaining).append_left _).trans (List.filter_append_perm _ xs)

namespace Swift

/-- The entry that a constant in the group of a category stands for. -/
def ColourConstant.entry (category : String) (c : ColourConstant) : MergedEntry where
  name := ⟨category, c.source⟩
  light := c.light
  dark := c.dark

def SizeConstant.size (c : SizeConstant) : Size := ⟨c.source, c.value⟩

structure ColourGroup.Records (start : String) (colours : List MergedEntry) (g : ColourGroup) :
    Prop where
  name : g.name = Naming.groupName g.source
  names : ∀ c ∈ g.constants, c.name = Naming.colourName start g.source c.source
  entries : (g.constants.map (ColourConstant.entry g.source)).Perm
    (colours.filter fun e => e.name.category = g.source)
  ascending : g.constants.Pairwise fun a b => a.source ≤ b.source

structure SizeGroup.Records (name start : String) (sizes : List Size) (g : SizeGroup) : Prop where
  name : g.name = name
  names : ∀ c ∈ g.constants, c.name = Naming.sizeName start c.source
  sizes : (g.constants.map SizeConstant.size).Perm sizes
  ascending : g.constants.Pairwise fun a b =>
    a.value.orderKey < b.value.orderKey ∨ (a.value = b.value ∧ a.source ≤ b.source)

namespace Declarations

/-- The declarations have one group for each category and everything that came in, in its order. -/
structure Records (config : Config) (colours : List MergedEntry) (spacing radius : List Size)
    (d : Declarations) : Prop where
  name : d.colours = config.output.colours
  categories : ∀ category, category ∈ d.groups.map ColourGroup.source ↔
    ∃ e ∈ colours, e.name.category = category
  ascending : (d.groups.map ColourGroup.source).Pairwise (· < ·)
  groups : ∀ g ∈ d.groups, g.Records config.starts.colour colours
  spacing : d.spacing.Records config.output.spacing config.starts.spacing spacing
  radius : d.radius.Records config.output.radius config.starts.radius radius

section Arranged
variable (config : Config) (starts : NameStarts) (colours : List MergedEntry)
  (spacing radius sizes : List Size)

theorem records_colourGroup (category : String) :
    (colourGroup starts colours category).Records starts.colour colours := by
  let sorted := (colours.filter fun e => e.name.category = category).mergeSort tokenNotAfter
  have member : ∀ e ∈ sorted, e.name.category = category := by
    intro e he
    simpa using (List.mem_filter.1 (List.mem_mergeSort.1 he)).2
  constructor
  · simp only [colourGroup]
  · intro c hc
    obtain ⟨e, he, rfl⟩ := List.mem_map.1 hc
    obtain rfl := member e he
    simp only [colourGroup, colourConstant]
  · have back : ∀ e ∈ sorted, (ColourConstant.entry category ∘ colourConstant starts) e = id e := by
      intro e he
      obtain rfl := member e he
      rfl
    change ((sorted.map (colourConstant starts)).map (ColourConstant.entry category)).Perm _
    rw [List.map_map, List.map_congr_left back, List.map_id]
    exact List.mergeSort_perm _ _
  · refine List.pairwise_map.2 ((pairwise_tokens _).imp ?_)
    intro a b ordered
    exact of_decide_eq_true ordered

theorem records_sizeGroup (name start : String) :
    (sizeGroup name start sizes).Records name start sizes := by
  constructor
  · rfl
  · intro c hc
    obtain ⟨s, -, rfl⟩ := List.mem_map.1 hc
    rfl
  · rw [sizeGroup, List.map_map]
    exact (List.map_id (Size.sort sizes)).symm ▸ Size.sort_perm sizes
  · refine List.pairwise_map.2 ((Size.pairwise_sort sizes).imp ?_)
    intro a b ordered
    exact (Size.notAfter_iff.1 ordered).imp_right (.imp_left Binary64.orderKey_injective)

theorem records_arrange :
    (arrange config colours spacing radius).Records config colours spacing radius := by
  have sources : (arrange config colours spacing radius).groups.map ColourGroup.source =
      categoriesOf colours := by
    rw [arrange, List.map_map]
    exact List.map_id _
  constructor
  · rfl
  · intro category
    rw [sources, mem_categoriesOf]
  · rw [sources]
    exact ascending_categoriesOf colours
  · intro g hg
    obtain ⟨category, -, rfl⟩ := List.mem_map.1 hg
    exact records_colourGroup config.starts colours category
  · exact records_sizeGroup spacing _ _
  · exact records_sizeGroup radius _ _

end Arranged

/-- No entry is lost, declared twice or moved to another group. -/
theorem Records.entries {config : Config} {colours : List MergedEntry} {spacing radius : List Size}
    {d : Declarations} (h : d.Records config colours spacing radius) :
    (d.groups.flatMap fun g => g.constants.map (ColourConstant.entry g.source)).Perm colours := by
  have covered : ∀ e ∈ colours, e.name.category ∈ d.groups.map ColourGroup.source := fun e he =>
    (h.categories _).2 ⟨e, he, rfl⟩
  have parts := flatMap_filter_perm (Table.nodup_of_ascending h.ascending) covered
  rw [List.flatMap_map] at parts
  exact (List.Perm.flatMap_left _ fun g hg => (h.groups g hg).entries).trans parts

end Declarations

/-- Raw names that are all different are given different names. -/
def TellsApart (sanitize : String → String) (raw : List String) : Prop :=
  raw.Nodup ∧ Set.InjOn sanitize {name | name ∈ raw}

theorem tellsApart_of_nodup {α : Type} {named : α → Named} {sanitize : String → String}
    {xs : List α} (made : ∀ x ∈ xs, (named x).name = sanitize (named x).source)
    (distinct : (Scope.bareNames (xs.map named)).Nodup) :
    TellsApart sanitize (xs.map fun x => (named x).source) := by
  have bare : Scope.bareNames (xs.map named) =
      (xs.map fun x => (named x).source).map fun raw => unquote (sanitize raw) := by
    rw [Scope.bareNames, List.map_map, List.map_map]
    exact List.map_congr_left fun x hx => congrArg unquote (made x hx)
  rw [bare] at distinct
  refine ⟨distinct.of_map _, ?_⟩
  intro a ha b hb same
  exact List.inj_on_of_nodup_map distinct ha hb (congrArg unquote same)

namespace Declarations

section Built
variable {config : Config} {colours : List MergedEntry} {spacing radius : List Size}
  {d : Declarations}

/-- Built declarations are what came in, arranged and named, and nothing else. Every scope tells the
tokens in it apart by their names. -/
theorem build_records_tokens (built : build config colours spacing radius = .ok d) :
    d.Records config colours spacing radius ∧
      (d.groups.flatMap fun g => g.constants.map (ColourConstant.entry g.source)).Perm colours ∧
      TellsApart Naming.groupName (d.groups.map ColourGroup.source) ∧
      (∀ g ∈ d.groups, TellsApart (Naming.colourName config.starts.colour g.source)
        (g.constants.map ColourConstant.source)) ∧
      TellsApart (Naming.sizeName config.starts.spacing)
        (d.spacing.constants.map SizeConstant.source) ∧
      TellsApart (Naming.sizeName config.starts.radius)
        (d.radius.constants.map SizeConstant.source) := by
  obtain ⟨rfl, valid⟩ := build_eq_ok.1 built
  have records := records_arrange config colours spacing radius
  have distinct {s : Scope} (hs : s ∈ (arrange config colours spacing radius).scopes) :=
    (validate_eq_ok.1 valid s hs).2
  refine ⟨records, records.entries, ?_, ?_, ?_, ?_⟩
  · exact tellsApart_of_nodup (fun g hg => (records.groups g hg).name)
      (distinct groupScope_mem_scopes)
  · intro g hg
    exact tellsApart_of_nodup (records.groups g hg).names (distinct (colourScope_mem_scopes hg))
  · exact tellsApart_of_nodup records.spacing.names
      (distinct (sizeScope_mem_scopes List.mem_cons_self))
  · exact tellsApart_of_nodup records.radius.names
      (distinct (sizeScope_mem_scopes (List.mem_cons_of_mem _ List.mem_cons_self)))

end Built

/-- Two categories out of order and a token whose name is a reserved word. -/
def mixedEntries : List MergedEntry := [
  ⟨⟨"text", "--color-text-switch"⟩, .ofRGB 1 2 3, .ofRGB 4 5 6⟩,
  ⟨⟨"fill", "b"⟩, .ofRGB 0 0 0, .ofRGB 9 9 9⟩]

/-- Sizes that all are zero. -/
def zeroSizes : List Size := [⟨"b", .zero⟩, ⟨"a", .zero⟩, ⟨"c", .ofMagnitudeBits true 0⟩]

theorem build_records_tokens_mixed :
    ∃ d, build {} mixedEntries zeroSizes [] = .ok d ∧
      d.groups.map (fun g => (g.name, g.constants.map fun c => (c.name, c.light))) =
        [("Fill", [("b", .ofRGB 0 0 0)]), ("Text", [("\x60switch\x60", .ofRGB 1 2 3)])] ∧
      d.spacing.constants.map SizeConstant.source = ["c", "a", "b"] ∧
      TellsApart Naming.groupName (d.groups.map ColourGroup.source) := by
  have sorted : Size.sort zeroSizes =
      [⟨"c", .ofMagnitudeBits true 0⟩, ⟨"a", .zero⟩, ⟨"b", .zero⟩] :=
    Size.sort_eq_iff.2 ⟨by decide +kernel, by decide +kernel⟩
  have valid : (arrange {} mixedEntries zeroSizes []).validate = .ok () := by
    simp only [arrange, sizeGroup, sorted]
    decide +kernel
  have built : build {} mixedEntries zeroSizes [] = .ok (arrange {} mixedEntries zeroSizes []) :=
    build_eq_ok.2 ⟨rfl, valid⟩
  obtain ⟨-, -, apart, -⟩ := build_records_tokens built
  refine ⟨_, built, by decide +kernel, ?_, apart⟩
  simp only [arrange, sizeGroup, sorted]
  rfl

end Declarations

end Swift

end DesignTokens
