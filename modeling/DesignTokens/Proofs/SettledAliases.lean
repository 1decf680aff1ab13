import DesignTokens.Proofs.AliasWalk
import DesignTokens.Proofs.Sequencing

/-!
Settling the aliases of a palette. Each token takes the literal that its walk ends at, and a token
whose walk leaves the palette stays as it was. No walk of the settled palette gets anywhere else
than before, which is why settling it again changes nothing. A walk without an end makes the whole
palette fail, and the first path in order that begins such a walk is the one reported.
-/
namespace DesignTokens.Palette

/-- The first path whose walk never ends, with the chain that resolving it reports. -/
structure FirstEndless (p : Palette) (root key : String) (chain : List String) : Prop where
  present : key ∈ p.keys
  least : ∀ other ∈ p.keys, other < key → ¬ p.NeverEnds root other
  endless : p.NeverEnds root key
  reported : p.resolve root key = .cyclic chain

/-- What a token under `key` is settled as. -/
structure SettlesTo (p : Palette) (root key : String) (leaf settled : Leaf) : Prop where
  ends : (∃ value, p.LeadsTo root key value) ∨ ∃ missing, p.LeavesAt root key missing
  kind : settled.kind = leaf.kind
  literal : ∀ value, p.LeadsTo root key value → settled.value = value
  kept : ∀ missing, p.LeavesAt root key missing → settled.value = leaf.value
  reference : (Reference.key? root settled.value).isSome ↔ ∃ missing, p.LeavesAt root key missing

variable {p : Palette} {root : String}

theorem cyclicChain?_eq_some {key : String} {chain : List String} :
    p.cyclicChain? root key = some chain ↔ p.resolve root key = .cyclic chain := by
  unfold cyclicChain?
  cases p.resolve root key <;> simp

theorem cyclicChain?_eq_none {key : String} :
    p.cyclicChain? root key = none ↔ ¬ p.NeverEnds root key := by
  rw [← cyclicChain?_isSome, Option.not_isSome_iff_eq_none]

theorem findSome?_cyclicChain? {chain : List String} :
    p.keys.findSome? (p.cyclicChain? root) = some chain ↔
      ∃ key, p.FirstEndless root key chain := by
  have split := exists_split_iff Table.lt_asymm p.ascending_keys
    (P := fun key => ¬ p.NeverEnds root key) (Q := fun key => p.resolve root key = .cyclic chain)
  have before (xs : List String) (key : String) :
      p.cyclicChain? root key = some chain ∧ (∀ x ∈ xs, p.cyclicChain? root x = none) ↔
        (∀ x ∈ xs, ¬ p.NeverEnds root x) ∧ p.resolve root key = .cyclic chain := by
    simp only [cyclicChain?_eq_some, cyclicChain?_eq_none, and_comm]
  rw [List.findSome?_eq_some_iff]
  simp only [before]
  rw [split]
  constructor
  · intro h
    obtain ⟨key, present, least, reported⟩ := h
    have endless := cyclicChain?_isSome.1 (Option.isSome_iff_exists.2
      ⟨chain, cyclicChain?_eq_some.2 reported⟩)
    exact ⟨key, present, least, endless, reported⟩
  · intro h
    obtain ⟨key, present, least, -, reported⟩ := h
    exact ⟨key, present, least, reported⟩

theorem resolveAliases_eq_error {fault : Failure} :
    p.resolveAliases root = .error fault ↔
      ∃ key chain, p.FirstEndless root key chain ∧ fault = .cycle chain := by
  unfold resolveAliases
  split
  · rename_i chain first
    obtain ⟨key, endless⟩ := findSome?_cyclicChain?.1 first
    constructor
    · intro h
      exact ⟨key, chain, endless, (Except.error.inj h).symm⟩
    · intro h
      obtain ⟨other, chain', endless', rfl⟩ := h
      have same := first.symm.trans (findSome?_cyclicChain?.2 ⟨other, endless'⟩)
      rw [Option.some.inj same]
  · rename_i noChain
    apply iff_of_false (fun h => nomatch h)
    intro h
    obtain ⟨key, chain, endless, -⟩ := h
    cases noChain.symm.trans (findSome?_cyclicChain?.2 ⟨key, endless⟩)

theorem LeadsTo.behind {key next value : String} (h : p.LeadsTo root next value)
    (walk : p.Walk root key next) : p.LeadsTo root key value := by
  obtain ⟨last, onward, holds⟩ := h
  exact ⟨last, walk.trans onward, holds⟩

theorem LeadsTo.not_reference {key value : String} (h : p.LeadsTo root key value) :
    Reference.key? root value = none := by
  obtain ⟨_, _, _, _, literal, rfl⟩ := h
  exact literal

/-- A token that the palette has and whose walk leaves it is a reference. -/
theorem LeavesAt.reference {key missing : String} {leaf : Leaf} (h : p.LeavesAt root key missing)
    (found : p.find? key = some leaf) : (Reference.key? root leaf.value).isSome := by
  rcases Relation.ReflTransGen.cases_head h.1 with rfl | ⟨next, ⟨first, here, refers⟩, -⟩
  · cases found.symm.trans h.2
  · obtain rfl : leaf = first := Option.some.inj (found.symm.trans here)
    rw [refers]
    rfl

theorem settlesTo_settle {key : String} {leaf : Leaf} (found : p.find? key = some leaf)
    (ends : ¬ p.NeverEnds root key) : p.SettlesTo root key leaf (p.settle root key leaf) := by
  have outcome := outcome_resolve p root key
  cases answer : p.resolve root key with
  | literal value =>
      rw [answer] at outcome
      have settled : p.settle root key leaf = { leaf with value := value } := by
        simp only [settle, answer]
      rw [settled]
      have stays (missing : String) : ¬ p.LeavesAt root key missing := fun h =>
        h.not_leadsTo outcome
      constructor
      · exact .inl ⟨value, outcome⟩
      · rfl
      · exact fun other h => leadsTo_unique outcome h
      · exact fun missing h => absurd h (stays missing)
      · have nowhere : ¬ ∃ missing, p.LeavesAt root key missing := by
          rintro ⟨missing, h⟩
          exact stays missing h
        refine iff_of_false ?_ nowhere
        simp [outcome.not_reference]
  | dangling missing =>
      rw [answer] at outcome
      have settled : p.settle root key leaf = leaf := by
        simp only [settle, answer]
      rw [settled]
      constructor
      · exact .inr ⟨missing, outcome⟩
      · rfl
      · exact fun value h => absurd h outcome.not_leadsTo
      · exact fun _ _ => rfl
      · exact iff_of_true (outcome.reference found) ⟨missing, outcome⟩
  | cyclic chain =>
      rw [answer] at outcome
      exact absurd outcome.neverEnds ends

/-! A settled palette has no steps but those that were there before, and every literal that a walk
leads to stands where the walk begins. -/

theorem refersTo_settled {key next : String}
    (h : RefersTo (p.mapValues (p.settle root)) root key next) : p.RefersTo root key next := by
  obtain ⟨settled, found, refers⟩ := h
  rw [Table.find?_mapValues] at found
  obtain ⟨leaf, here, rfl⟩ := Option.map_eq_some_iff.1 found
  unfold settle at refers
  split at refers
  · rename_i value answer
    cases refers.symm.trans (resolve_eq_literal.1 answer).not_reference
  · exact ⟨leaf, here, refers⟩

theorem neverEnds_settled {key : String}
    (h : NeverEnds (p.mapValues (p.settle root)) root key) : p.NeverEnds root key := by
  obtain ⟨walk, start, steps⟩ := h
  exact ⟨walk, start, fun n => refersTo_settled (steps n)⟩

theorem leadsTo_settled {key value : String} :
    LeadsTo (p.mapValues (p.settle root)) root key value ↔ p.LeadsTo root key value := by
  constructor
  · intro h
    obtain ⟨last, walk, holds⟩ := h
    refine (holdsLiteral_settled.1 holds).behind ?_
    exact Relation.ReflTransGen.mono (fun _ _ => refersTo_settled) _ _ walk
  · intro h
    exact ⟨key, .refl, holdsLiteral_settled.2 h⟩

theorem settle_settled {key : String} {leaf : Leaf}
    (found : (p.mapValues (p.settle root)).find? key = some leaf) :
    settle (p.mapValues (p.settle root)) root key leaf = leaf := by
  unfold settle
  split
  · rename_i value answer
    have leads := leadsTo_settled.1 (resolve_eq_literal.1 answer)
    obtain ⟨_, here, -, rfl⟩ := holdsLiteral_settled.2 leads
    obtain rfl := Option.some.inj (found.symm.trans here)
    rfl
  · rfl

theorem resolveAliases_settled (ends : ∀ key ∈ p.keys, ¬ p.NeverEnds root key) :
    resolveAliases (p.mapValues (p.settle root)) root = .ok (p.mapValues (p.settle root)) := by
  refine resolveAliases_eq_ok.2 ⟨?_, Table.eq_of_find?_eq fun key => ?_⟩
  · intro key hkey endless
    rw [Table.keys_mapValues] at hkey
    exact ends key hkey (neverEnds_settled endless)
  · rw [Table.find?_mapValues _ (p.mapValues (p.settle root))]
    cases found : (p.mapValues (p.settle root)).find? key with
    | none => rfl
    | some leaf => rw [Option.map_some, settle_settled found]

/-- Settling fails exactly when some walk never ends, and then reports the first path that begins
one. Otherwise every token settles where its walk ends, and what comes out settles to itself. -/
theorem resolveAliases_settles_walks (p : Palette) (root : String) :
    ((∃ fault, p.resolveAliases root = .error fault) ↔ ∃ key ∈ p.keys, p.NeverEnds root key) ∧
      (∀ fault, p.resolveAliases root = .error fault ↔
        ∃ key chain, p.FirstEndless root key chain ∧ fault = .cycle chain) ∧
      ∀ settled, p.resolveAliases root = .ok settled →
        settled.keys = p.keys ∧
          (∀ key leaf, p.find? key = some leaf →
            ∃ leaf', settled.find? key = some leaf' ∧ p.SettlesTo root key leaf leaf') ∧
          settled.resolveAliases root = .ok settled := by
  refine ⟨?_, fun _ => resolveAliases_eq_error, ?_⟩
  · constructor
    · intro h
      obtain ⟨fault, h⟩ := h
      obtain ⟨key, chain, first, -⟩ := resolveAliases_eq_error.1 h
      exact ⟨key, first.present, first.endless⟩
    · intro h
      obtain ⟨key, present, endless⟩ := h
      cases answer : p.resolveAliases root with
      | error fault => exact ⟨fault, rfl⟩
      | ok settled => exact absurd endless ((resolveAliases_eq_ok.1 answer).1 key present)
  · intro settled h
    obtain ⟨ends, rfl⟩ := resolveAliases_eq_ok.1 h
    refine ⟨Table.keys_mapValues _ p, ?_, resolveAliases_settled ends⟩
    intro key leaf found
    refine ⟨p.settle root key leaf, ?_, settlesTo_settle found (ends key ?_)⟩
    · rw [Table.find?_mapValues, found, Option.map_some]
    · exact mem_keys_of_find? found

/-- A chain that ends at a literal beside one that leaves the palette. -/
def looseEndedPalette : Palette :=
  Table.ofList [("a", ⟨"alias", "{Colors.B}"⟩), ("b", ⟨"color", "{c}"⟩),
    ("c", ⟨"color", "#ffffff"⟩), ("d", ⟨"color", "{Missing}"⟩), ("e", ⟨"color", "{d}"⟩)]

theorem resolveAliases_settles_walks_loose_ended :
    ∃ settled, looseEndedPalette.resolveAliases "Colors" = .ok settled ∧
      settled.find? "a" = some ⟨"alias", "#ffffff"⟩ ∧
      settled.find? "e" = some ⟨"color", "{d}"⟩ ∧
      settled.resolveAliases "Colors" = .ok settled := by
  obtain ⟨-, -, settles⟩ := resolveAliases_settles_walks looseEndedPalette "Colors"
  cases answer : looseEndedPalette.resolveAliases "Colors" with
  | error fault =>
      have succeeds : (looseEndedPalette.resolveAliases "Colors").isOk = true := by decide +kernel
      rw [answer] at succeeds
      cases succeeds
  | ok settled =>
      obtain ⟨-, tokens, again⟩ := settles settled answer
      obtain ⟨a, foundA, settledA⟩ := tokens "a" ⟨"alias", "{Colors.B}"⟩ (by decide +kernel)
      obtain ⟨e, foundE, settledE⟩ := tokens "e" ⟨"color", "{d}"⟩ (by decide +kernel)
      have literal : looseEndedPalette.LeadsTo "Colors" "a" "#ffffff" :=
        resolve_eq_literal.1 (by decide +kernel)
      have missing : looseEndedPalette.LeavesAt "Colors" "e" "missing" :=
        resolve_eq_dangling.1 (by decide +kernel)
      have leafA := congrArg₂ Leaf.mk settledA.kind (settledA.literal _ literal)
      have leafE := congrArg₂ Leaf.mk settledE.kind (settledE.kept _ missing)
      refine ⟨settled, rfl, foundA.trans ?_, foundE.trans ?_, again⟩
      · exact congrArg some leafA
      · exact congrArg some leafE

end DesignTokens.Palette
