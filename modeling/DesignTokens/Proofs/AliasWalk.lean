import DesignTokens.Palette.Alias
import DesignTokens.Proofs.Lookup
import Mathlib.Data.List.Chain
import Mathlib.Data.List.Nodup
import Mathlib.Logic.Relation

/-!
Walks along the references of a palette. A walk goes from a path to the path that the token there
refers to. It ends at a literal, or at a path the palette lacks, or it never ends; which of the
three it is does not depend on any visited set, and resolving a path finds it out.
-/
namespace DesignTokens.Palette

/-- One step: the token at `key` is a reference to `next`, which may be missing. -/
def RefersTo (p : Palette) (root key next : String) : Prop :=
  ∃ leaf, p.find? key = some leaf ∧ Reference.key? root leaf.value = some next

def HoldsLiteral (p : Palette) (root key value : String) : Prop :=
  ∃ leaf, p.find? key = some leaf ∧ Reference.key? root leaf.value = none ∧ leaf.value = value

def Walk (p : Palette) (root : String) : String → String → Prop :=
  Relation.ReflTransGen (p.RefersTo root)

def LeadsTo (p : Palette) (root start value : String) : Prop :=
  ∃ key, p.Walk root start key ∧ p.HoldsLiteral root key value

def LeavesAt (p : Palette) (root start missing : String) : Prop :=
  p.Walk root start missing ∧ p.find? missing = none

def NeverEnds (p : Palette) (root start : String) : Prop :=
  ∃ walk : Nat → String, walk 0 = start ∧ ∀ n, p.RefersTo root (walk n) (walk (n + 1))

variable {p : Palette} {root : String}

theorem refersTo_unique {key a b : String} (ha : p.RefersTo root key a)
    (hb : p.RefersTo root key b) : a = b := by
  obtain ⟨leaf, found, refers⟩ := ha
  obtain ⟨leaf', found', refers'⟩ := hb
  obtain rfl : leaf = leaf' := Option.some.inj (found.symm.trans found')
  exact Option.some.inj (refers.symm.trans refers')

theorem holdsLiteral_unique {key v w : String} (hv : p.HoldsLiteral root key v)
    (hw : p.HoldsLiteral root key w) : v = w := by
  obtain ⟨leaf, found, -, rfl⟩ := hv
  obtain ⟨leaf', found', -, rfl⟩ := hw
  exact congrArg Leaf.value (Option.some.inj (found.symm.trans found'))

theorem HoldsLiteral.not_refersTo {key value next : String} (h : p.HoldsLiteral root key value) :
    ¬ p.RefersTo root key next := by
  intro h
  obtain ⟨leaf, found, refers⟩ := h
  obtain ⟨leaf', found', literal, -⟩ := h
  obtain rfl : leaf = leaf' := Option.some.inj (found.symm.trans found')
  rw [literal] at refers
  cases refers

theorem not_refersTo_of_missing {key next : String} (h : p.find? key = none) :
    ¬ p.RefersTo root key next := by
  intro h
  obtain ⟨leaf, found, -⟩ := h
  rw [h] at found
  cases found

/-- A walk that goes on can only be on its way to where another walk has stopped. -/
theorem Walk.eq_of_stuck {start a b : String} (ha : p.Walk root start a)
    (hb : p.Walk root start b) (stuck : ∀ next, ¬ p.RefersTo root a next)
    (stuck' : ∀ next, ¬ p.RefersTo root b next) : a = b := by
  have deterministic : Relator.RightUnique (p.RefersTo root) := fun _ _ _ => refersTo_unique
  rcases Relation.ReflTransGen.total_of_right_unique deterministic ha hb with h | h
  · rcases Relation.ReflTransGen.cases_head h with h | ⟨next, step, -⟩
    · exact h
    · exact absurd step (stuck next)
  · rcases Relation.ReflTransGen.cases_head h with h | ⟨next, step, -⟩
    · exact h.symm
    · exact absurd step (stuck' next)

theorem leadsTo_unique {start v w : String} (hv : p.LeadsTo root start v)
    (hw : p.LeadsTo root start w) : v = w := by
  obtain ⟨a, walk, holds⟩ := hv
  obtain ⟨b, walk', holds'⟩ := hw
  obtain rfl : a = b := walk.eq_of_stuck walk' (fun _ => holds.not_refersTo)
    (fun _ => holds'.not_refersTo)
  exact holdsLiteral_unique holds holds'

theorem LeavesAt.not_leadsTo {start missing v : String} (h : p.LeavesAt root start missing) :
    ¬ p.LeadsTo root start v := by
  intro h
  obtain ⟨key, walk, holds⟩ := h
  obtain rfl : missing = key := h.1.eq_of_stuck walk
    (fun _ => not_refersTo_of_missing h.2) (fun _ => holds.not_refersTo)
  obtain ⟨leaf, found, -⟩ := holds
  rw [h.2] at found
  cases found

theorem NeverEnds.step {start next : String} (h : p.NeverEnds root start)
    (refers : p.RefersTo root start next) : p.NeverEnds root next := by
  obtain ⟨walk, rfl, steps⟩ := h
  exact ⟨fun n => walk (n + 1), refersTo_unique (steps 0) refers, fun n => steps (n + 1)⟩

theorem NeverEnds.walk {start key : String} (h : p.NeverEnds root start)
    (w : p.Walk root start key) : p.NeverEnds root key := by
  induction w with
  | refl => exact h
  | tail _ refers ih => exact ih.step refers

theorem NeverEnds.refersTo {start : String} (h : p.NeverEnds root start) :
    ∃ next, p.RefersTo root start next := by
  obtain ⟨walk, rfl, steps⟩ := h
  exact ⟨walk 1, steps 0⟩

theorem NeverEnds.not_leadsTo {start v : String} (h : p.NeverEnds root start) :
    ¬ p.LeadsTo root start v := by
  intro h
  obtain ⟨key, walk, holds⟩ := h
  obtain ⟨next, refers⟩ := (h.walk walk).refersTo
  exact holds.not_refersTo refers

theorem NeverEnds.not_leavesAt {start missing : String} (h : p.NeverEnds root start) :
    ¬ p.LeavesAt root start missing := by
  intro h
  obtain ⟨walk, lacking⟩ := h
  obtain ⟨next, refers⟩ := (h.walk walk).refersTo
  exact not_refersTo_of_missing lacking refers

/-- Within a set of paths that every step stays in, a walk goes on for ever. -/
theorem neverEnds_of_closed (closed : String → Prop)
    (stays : ∀ key, closed key → ∃ next, closed next ∧ p.RefersTo root key next)
    {start : String} (h : closed start) : p.NeverEnds root start := by
  choose next within refers using stays
  let walk : Nat → { key // closed key } :=
    fun n => n.rec ⟨start, h⟩ fun _ key => ⟨next key.1 key.2, within key.1 key.2⟩
  exact ⟨fun n => (walk n).1, rfl, fun n => refers (walk n).1 (walk n).2⟩

/-- A chain of steps from `start` to a path that comes up a second time, all before it being
different. -/
structure Lasso (p : Palette) (root start : String) (chain : List String) : Prop where
  begins : chain.head? = some start
  linked : chain.IsChain (p.RefersTo root)
  closes : ∃ path again, chain = path ++ [again] ∧ path.Nodup ∧ again ∈ path

theorem exists_next_of_isChain {R : String → String → Prop} {path : List String}
    {again key : String} (linked : (path ++ [again]).IsChain R) (h : key ∈ path) :
    ∃ next ∈ path ++ [again], R key next := by
  induction path with
  | nil => cases h
  | cons a rest ih =>
      obtain ⟨first, linked⟩ := List.isChain_cons.1 linked
      rcases List.mem_cons.1 h with rfl | h
      · cases rest with
        | nil => exact ⟨again, by simp, first again rfl⟩
        | cons b rest => exact ⟨b, by simp, first b rfl⟩
      · obtain ⟨next, mem, step⟩ := ih linked h
        exact ⟨next, List.mem_cons_of_mem a mem, step⟩

theorem Lasso.neverEnds {start : String} {chain : List String} (h : p.Lasso root start chain) :
    p.NeverEnds root start := by
  obtain ⟨begins, linked, path, again, rfl, -, repeated⟩ := h
  have inPath : ∀ key ∈ path ++ [again], key ∈ path := by
    intro key hkey
    rcases List.mem_append.1 hkey with hkey | hkey
    · exact hkey
    · exact List.mem_singleton.1 hkey ▸ repeated
  apply neverEnds_of_closed fun key => key ∈ path
  · intro key hkey
    obtain ⟨next, mem, refers⟩ := exists_next_of_isChain linked hkey
    exact ⟨next, inPath next mem, refers⟩
  · exact inPath start (List.mem_of_mem_head? begins)

/-- What an answer says about the walk from `start`. -/
def Outcome (p : Palette) (root start : String) : Resolution → Prop
  | .literal value => p.LeadsTo root start value
  | .dangling missing => p.LeavesAt root start missing
  | .cyclic chain => p.Lasso root start chain

/-- The way from `start` so far, the last path first; the token at the last path has `value`. -/
structure Trail (p : Palette) (root start : String) (visited : List String) (value : String) :
    Prop where
  begins : visited.getLast? = some start
  linked : visited.IsChain fun later earlier => p.RefersTo root earlier later
  distinct : visited.Nodup
  arrived : ∃ key leaf, visited.head? = some key ∧ p.find? key = some leaf ∧ leaf.value = value

theorem Trail.walk {start value : String} {visited : List String}
    (t : p.Trail root start visited value) :
    ∃ key leaf, p.Walk root start key ∧ p.find? key = some leaf ∧ leaf.value = value ∧
      visited.head? = some key := by
  obtain ⟨begins, linked, -, key, leaf, head, found, rfl⟩ := t
  refine ⟨key, leaf, ?_, found, rfl, head⟩
  clear found
  induction visited generalizing key with
  | nil => cases head
  | cons later before ih =>
      obtain rfl : later = key := Option.some.inj head
      cases before with
      | nil =>
          obtain rfl : later = start := by simpa using begins
          exact .refl
      | cons earlier before =>
          obtain ⟨step, linked⟩ := List.isChain_cons_cons.1 linked
          exact .tail (ih (by simpa using begins) linked earlier rfl) step

theorem Trail.step {start value next : String} {visited : List String}
    (t : p.Trail root start visited value) (refers : Reference.key? root value = some next) :
    (next :: visited).IsChain fun later earlier => p.RefersTo root earlier later := by
  obtain ⟨-, linked, -, key, leaf, head, found, rfl⟩ := t
  refine List.isChain_cons.2 ⟨?_, linked⟩
  intro key' head'
  obtain rfl : key = key' := Option.some.inj (head.symm.trans head')
  exact ⟨leaf, found, refers⟩

theorem Trail.cons_begins {start value : String} {visited : List String}
    (t : p.Trail root start visited value) (next : String) :
    (next :: visited).getLast? = some start := by
  obtain ⟨begins, -, -, key, leaf, head, -⟩ := t
  cases visited with
  | nil => cases head
  | cons later before => simpa using begins

theorem outcome_follow (start : String) (visited : List String) (value : String)
    (t : p.Trail root start visited value) :
    p.Outcome root start (p.follow root visited value) := by
  fun_induction follow p root visited value with
  | case1 visited value literal =>
      obtain ⟨key, leaf, walk, found, rfl, -⟩ := t.walk
      exact ⟨key, walk, leaf, found, literal, rfl⟩
  | case2 visited value next refers missing =>
      obtain ⟨key, leaf, walk, found, rfl, -⟩ := t.walk
      exact ⟨walk.tail ⟨leaf, found, refers⟩, missing⟩
  | case3 visited value next refers leaf found again =>
      refine ⟨?_, ?_, visited.reverse, next, List.reverse_cons, ?_, ?_⟩
      · rw [List.head?_reverse]
        exact t.cons_begins next
      · exact List.isChain_reverse.2 (t.step refers)
      · exact List.nodup_reverse.2 t.distinct
      · exact List.mem_reverse.2 again
  | case4 visited value next refers leaf found fresh ih =>
      exact ih ⟨t.cons_begins next, t.step refers, List.nodup_cons.2 ⟨fresh, t.distinct⟩,
        next, leaf, rfl, found, rfl⟩

theorem outcome_resolve (p : Palette) (root start : String) :
    p.Outcome root start (p.resolve root start) := by
  unfold resolve
  split
  · rename_i missing
    exact ⟨.refl, missing⟩
  · rename_i leaf found
    exact outcome_follow start [start] leaf.value
      ⟨rfl, List.isChain_singleton start, List.nodup_singleton start, start, leaf, rfl, found, rfl⟩

theorem resolve_eq_literal {start value : String} :
    p.resolve root start = .literal value ↔ p.LeadsTo root start value := by
  have outcome := outcome_resolve p root start
  constructor
  · intro h
    rwa [h] at outcome
  · intro h
    cases answer : p.resolve root start with
    | literal other =>
        rw [answer] at outcome
        rw [leadsTo_unique outcome h]
    | dangling missing =>
        rw [answer] at outcome
        exact absurd h outcome.not_leadsTo
    | cyclic chain =>
        rw [answer] at outcome
        exact absurd h outcome.neverEnds.not_leadsTo

theorem cyclicChain?_isSome {start : String} :
    (p.cyclicChain? root start).isSome ↔ p.NeverEnds root start := by
  have outcome := outcome_resolve p root start
  unfold cyclicChain?
  cases answer : p.resolve root start with
  | literal value =>
      rw [answer] at outcome
      exact iff_of_false Bool.false_ne_true fun endless => endless.not_leadsTo outcome
  | dangling missing =>
      rw [answer] at outcome
      exact iff_of_false Bool.false_ne_true fun endless => endless.not_leavesAt outcome
  | cyclic chain =>
      rw [answer] at outcome
      exact iff_of_true rfl outcome.neverEnds

theorem resolveAliases_eq_ok {settled : Palette} :
    p.resolveAliases root = .ok settled ↔
      (∀ key ∈ p.keys, ¬ p.NeverEnds root key) ∧ settled = p.mapValues (p.settle root) := by
  unfold resolveAliases
  split
  · rename_i chain first
    obtain ⟨key, hkey, cyclic⟩ := List.exists_of_findSome?_eq_some first
    refine iff_of_false (fun h => nomatch h) fun h => h.1 key hkey ?_
    exact cyclicChain?_isSome.1 (cyclic ▸ rfl)
  · rename_i noChain
    have ends : ∀ key ∈ p.keys, ¬ p.NeverEnds root key := by
      intro key hkey endless
      have := cyclicChain?_isSome.2 endless
      rw [List.findSome?_eq_none_iff.1 noChain key hkey] at this
      cases this
    exact ⟨fun h => ⟨ends, (Except.ok.inj h).symm⟩, fun h => h.2 ▸ rfl⟩

theorem LeadsTo.found {key value : String} (h : p.LeadsTo root key value) :
    ∃ leaf, p.find? key = some leaf := by
  obtain ⟨last, walk, leaf, found, -⟩ := h
  rcases Relation.ReflTransGen.cases_head walk with rfl | ⟨next, ⟨first, here, -⟩, -⟩
  · exact ⟨leaf, found⟩
  · exact ⟨first, here⟩

/-- In the settled palette the literals stand where the walks to them began. -/
theorem holdsLiteral_settled {key value : String} :
    HoldsLiteral (p.mapValues (p.settle root)) root key value ↔ p.LeadsTo root key value := by
  constructor
  · intro h
    obtain ⟨settled, found, literal, rfl⟩ := h
    rw [Table.find?_mapValues] at found
    obtain ⟨leaf, here, rfl⟩ := Option.map_eq_some_iff.1 found
    unfold settle at literal ⊢
    split at literal
    · rename_i value answer
      exact resolve_eq_literal.1 answer
    · exact ⟨key, .refl, leaf, here, literal, rfl⟩
  · intro h
    obtain ⟨leaf, found⟩ := h.found
    have answer := resolve_eq_literal.2 h
    have settled : p.settle root key leaf = { leaf with value := value } := by
      simp only [settle, answer]
    obtain ⟨_, _, _, _, literal, same⟩ := h
    refine ⟨{ leaf with value := value }, ?_, ?_, rfl⟩
    · rw [Table.find?_mapValues, found, Option.map_some, settled]
    · rwa [same] at literal

/-- A path that a chain goes on from is in the palette, so that a lasso, which has none of them
twice before its end, is hardly longer than the palette. -/
theorem Lasso.length_le {start : String} {chain : List String} (h : p.Lasso root start chain) :
    chain.length ≤ p.size + 1 := by
  obtain ⟨-, linked, path, again, rfl, distinct, -⟩ := h
  have inPalette : path ⊆ p.keys := by
    intro key hkey
    obtain ⟨next, -, leaf, found, -⟩ := exists_next_of_isChain linked hkey
    exact mem_keys_of_find? found
  have bound : path.length ≤ p.keys.length :=
    (List.subperm_of_subset distinct inPalette).length_le
  rw [Table.keys, List.length_map] at bound
  rw [List.length_append, List.length_singleton]
  exact Nat.add_le_add_right bound 1

theorem resolve_eq_dangling {start missing : String} :
    p.resolve root start = .dangling missing ↔ p.LeavesAt root start missing := by
  have outcome := outcome_resolve p root start
  constructor
  · intro h
    rwa [h] at outcome
  · intro h
    cases answer : p.resolve root start with
    | literal value =>
        rw [answer] at outcome
        exact absurd outcome h.not_leadsTo
    | dangling other =>
        rw [answer] at outcome
        rw [outcome.1.eq_of_stuck h.1 (fun _ => not_refersTo_of_missing outcome.2)
          (fun _ => not_refersTo_of_missing h.2)]
    | cyclic chain =>
        rw [answer] at outcome
        exact absurd h outcome.neverEnds.not_leavesAt

/-- Every walk ends in one of three ways or not at all, and resolving tells which. -/
theorem resolve_classifies_walk (p : Palette) (root start : String) :
    (∀ value, p.resolve root start = .literal value ↔ p.LeadsTo root start value) ∧
      (∀ missing, p.resolve root start = .dangling missing ↔ p.LeavesAt root start missing) ∧
      (p.find? start = none → p.resolve root start = .dangling start) ∧
      ((∃ chain, p.resolve root start = .cyclic chain) ↔ p.NeverEnds root start) ∧
      ∀ chain, p.resolve root start = .cyclic chain →
        p.Lasso root start chain ∧ chain.length ≤ p.size + 1 := by
  refine ⟨fun _ => resolve_eq_literal, fun _ => resolve_eq_dangling, ?_, ?_, ?_⟩
  · intro missing
    exact resolve_eq_dangling.2 ⟨.refl, missing⟩
  · rw [← cyclicChain?_isSome, cyclicChain?]
    cases p.resolve root start <;> simp
  · intro chain answer
    have outcome := outcome_resolve p root start
    rw [answer] at outcome
    exact ⟨outcome, outcome.length_le⟩

/-- A way into a circle of two. -/
def circularPalette : Palette :=
  Table.ofList [("a", ⟨"color", "{b}"⟩), ("b", ⟨"color", "{Colors.C}"⟩), ("c", ⟨"color", "{b}"⟩)]

theorem resolve_classifies_walk_into_circle :
    circularPalette.Lasso "Colors" "a" ["a", "b", "c", "b"] ∧
      circularPalette.NeverEnds "Colors" "a" ∧
      circularPalette.resolve "Colors" "d" = .dangling "d" := by
  have answer : circularPalette.resolve "Colors" "a" = .cyclic ["a", "b", "c", "b"] := by
    decide +kernel
  obtain ⟨-, -, -, endless, chains⟩ := resolve_classifies_walk circularPalette "Colors" "a"
  obtain ⟨-, -, missing, -⟩ := resolve_classifies_walk circularPalette "Colors" "d"
  exact ⟨(chains _ answer).1, endless.1 ⟨_, answer⟩, missing (by decide +kernel)⟩

end DesignTokens.Palette
