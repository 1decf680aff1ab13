import DesignTokens.Table
import DesignTokens.Proofs.Sequencing
import Mathlib.Data.List.Sort

/-!
What is found in a table. Its order makes the entry under a key unique, so finding a value and
having it among the entries are the same, and of several values entered under one key the last one
is found. Keys in ascending order are determined by which keys there are.
-/
namespace DesignTokens.Table

section Order
variable {κ α : Type} [LT κ]

theorem ascending_keys (t : Table κ α) : t.keys.Pairwise (· < ·) := List.pairwise_map.2 t.ascending

variable [KeyOrder κ]

theorem lt_asymm (a b : κ) (h : a < b) : ¬ b < a := fun h' =>
  KeyOrder.irrefl a (KeyOrder.trans h h')

theorem lt_or_eq_or_lt (a b : κ) : a < b ∨ a = b ∨ b < a := by
  by_cases less : a < b
  · exact .inl less
  · by_cases more : b < a
    · exact .inr (.inr more)
    · exact .inr (.inl (KeyOrder.connected less more))

/-- A list in strictly ascending order of a key is determined by its members. -/
theorem eq_of_ascending_on (key : α → κ) {xs ys : List α}
    (h : xs.Pairwise fun a b => key a < key b) (h' : ys.Pairwise fun a b => key a < key b)
    (same : ∀ a, a ∈ xs ↔ a ∈ ys) : xs = ys := by
  have antisymm : Std.Antisymm fun a b : α => key a < key b :=
    ⟨fun a b hab hba => absurd hba (lt_asymm (key a) (key b) hab)⟩
  have irrefl : Std.Irrefl fun a b : α => key a < key b := ⟨fun a => KeyOrder.irrefl (key a)⟩
  exact h.eq_of_mem_iff h' same

theorem eq_of_ascending {keys keys' : List κ} (h : keys.Pairwise (· < ·))
    (h' : keys'.Pairwise (· < ·)) (same : ∀ k, k ∈ keys ↔ k ∈ keys') : keys = keys' :=
  eq_of_ascending_on (fun k => k) h h' same

theorem nodup_of_ascending {keys : List κ} (h : keys.Pairwise (· < ·)) : keys.Nodup := by
  refine h.imp ?_
  rintro a b hab rfl
  exact KeyOrder.irrefl a hab

end Order

variable {κ α β : Type} [LT κ] [DecidableEq κ] [KeyOrder κ]

theorem find?_eq_some {t : Table κ α} {k : κ} {v : α} :
    t.find? k = some v ↔ (k, v) ∈ t.entries := by
  obtain ⟨es, ascending⟩ := t
  simp only [find?]
  induction es with
  | nil => simp
  | cons e rest ih =>
      obtain ⟨before, ascending⟩ := List.pairwise_cons.1 ascending
      by_cases hk : e.1 = k
      · have later : (k, v) ∉ rest := by
          intro h
          have := before (k, v) h
          exact KeyOrder.irrefl k (by rwa [hk] at this)
        simp only [List.find?_cons_of_pos, hk, decide_true, Option.map_some, Option.some.injEq,
          List.mem_cons, later, or_false]
        constructor
        · rintro rfl
          exact Prod.ext hk.symm rfl
        · rintro rfl
          rfl
      · have other : (k, v) ≠ e := fun h => hk (h ▸ rfl)
        simpa [hk, other] using ih ascending

/-- Going through a table in order, the first entry that fails is the one reported. -/
theorem mapM_entries_eq_error {ε : Type} {f : κ × α → Except ε β} {t : Table κ α} {e : ε} :
    t.entries.mapM f = .error e ↔
      ∃ k v, t.find? k = some v ∧
        (∀ earlier w, t.find? earlier = some w → earlier < k → ∃ b, f (earlier, w) = .ok b) ∧
        f (k, v) = .error e := by
  have asymm (a b : κ × α) : a.1 < b.1 → ¬ b.1 < a.1 := lt_asymm a.1 b.1
  rw [mapM_eq_error, exists_split_iff asymm t.ascending]
  simp only [find?_eq_some, Prod.exists, Prod.forall]

theorem mem_keys {t : Table κ α} {k : κ} : k ∈ t.keys ↔ ∃ v, t.find? k = some v := by
  simp [keys, find?_eq_some]

theorem isNone_find?_iff {t : Table κ α} {k : κ} : (t.find? k).isNone ↔ k ∉ t.keys := by
  rw [mem_keys, ← Option.isSome_iff_exists, Option.isNone_iff_eq_none,
    Option.not_isSome_iff_eq_none]

theorem find?_mapValues (f : κ → α → β) (t : Table κ α) (k : κ) :
    (t.mapValues f).find? k = (t.find? k).map (f k) := by
  ext w
  simp only [find?_eq_some, mapValues, List.mem_map, Prod.mk.injEq, Option.map_eq_some_iff]
  constructor
  · intro h
    obtain ⟨⟨key, v⟩, h, rfl, rfl⟩ := h
    exact ⟨v, h, rfl⟩
  · intro h
    obtain ⟨v, h, rfl⟩ := h
    exact ⟨(k, v), h, rfl, rfl⟩

omit [DecidableEq κ] [KeyOrder κ] in
theorem keys_mapValues (f : κ → α → β) (t : Table κ α) : (t.mapValues f).keys = t.keys := by
  simp [keys, mapValues]

/-- What a function makes of the values, each under its key. Where it makes nothing, nothing is
kept. -/
def select (f : α → Option β) (t : Table κ α) : List (κ × β) :=
  t.entries.filterMap fun (key, value) => (f value).map fun part => (key, part)

theorem mem_select {f : α → Option β} {t : Table κ α} {k : κ} {part : β} :
    (k, part) ∈ t.select f ↔ (t.find? k).bind f = some part := by
  simp only [select, List.mem_filterMap, Option.map_eq_some_iff, Option.bind_eq_some_iff,
    find?_eq_some, Prod.exists, Prod.mk.injEq]
  constructor
  · intro h
    obtain ⟨_, value, found, _, own, rfl, rfl⟩ := h
    exact ⟨value, found, own⟩
  · intro h
    obtain ⟨value, found, own⟩ := h
    exact ⟨k, value, found, part, own, rfl, rfl⟩

omit [DecidableEq κ] [KeyOrder κ] in
theorem ascending_select (f : α → Option β) (t : Table κ α) :
    (t.select f).Pairwise fun a b => a.1 < b.1 := by
  refine List.pairwise_filterMap.2 (t.ascending.imp ?_)
  intro e e' before a ha a' ha'
  obtain ⟨_, -, rfl⟩ := Option.map_eq_some_iff.1 ha
  obtain ⟨_, -, rfl⟩ := Option.map_eq_some_iff.1 ha'
  exact before

theorem find?_erase (t : Table κ α) (k key : κ) :
    (t.erase k).find? key = if key = k then none else t.find? key := by
  ext w
  rw [find?_eq_some, erase, List.mem_filter, ← find?_eq_some]
  split
  · rename_i h
    simp [h]
  · rename_i h
    simp [h]

/-- A table is what is found in it. -/
theorem eq_of_find?_eq {t u : Table κ α} (same : ∀ k, t.find? k = u.find? k) : t = u := by
  have entries : t.entries = u.entries := by
    refine eq_of_ascending_on Prod.fst t.ascending u.ascending ?_
    rintro ⟨k, v⟩
    rw [← find?_eq_some, ← find?_eq_some, same]
  cases t
  cases u
  cases entries
  rfl

variable [DecidableLT κ]

omit [DecidableEq κ] in
theorem mem_insertEntry_iff {k : κ} {v : α} {e : κ × α} {es : List (κ × α)}
    (ascending : es.Pairwise fun a b => a.1 < b.1) :
    e ∈ insertEntry k v es ↔ e = (k, v) ∨ (e ∈ es ∧ e.1 ≠ k) := by
  induction es with
  | nil => simp [insertEntry]
  | cons d rest ih =>
      obtain ⟨before, ascending⟩ := List.pairwise_cons.1 ascending
      have irrefl := KeyOrder.irrefl k
      rw [insertEntry]
      split
      · rename_i hk
        have others : ∀ e ∈ d :: rest, e.1 ≠ k := by
          rintro e he rfl
          rcases List.mem_cons.1 he with rfl | he
          · exact irrefl hk
          · exact irrefl (KeyOrder.trans hk (before e he))
        grind
      · split
        · rename_i hd
          grind
        · rename_i hk hd
          have same : d.1 = k := KeyOrder.connected hd hk
          have others : ∀ e ∈ rest, e.1 ≠ k := fun e he h => irrefl (by
            simpa [same, h] using before e he)
          grind

theorem find?_insert (t : Table κ α) (k : κ) (v : α) (key : κ) :
    (t.insert k v).find? key = if key = k then some v else t.find? key := by
  ext w
  rw [find?_eq_some, insert, mem_insertEntry_iff t.ascending, ← find?_eq_some]
  split
  · rename_i h
    simp [h, eq_comm]
  · rename_i h
    simp [h]

theorem mem_keys_insert {t : Table κ α} {k key : κ} {v : α} :
    key ∈ (t.insert k v).keys ↔ key = k ∨ key ∈ t.keys := by
  simp only [mem_keys, find?_insert]
  by_cases same : key = k
  · simp [same]
  · simp [same]

theorem find?_ofList (es : List (κ × α)) (key : κ) :
    (ofList es).find? key = (es.reverse.find? fun e => e.1 = key).map Prod.snd := by
  suffices h : ∀ t : Table κ α, (es.foldl (fun t e => t.insert e.1 e.2) t).find? key =
      ((es.reverse.find? fun e => e.1 = key).map Prod.snd).or (t.find? key) by
    simpa [ofList, empty, find?] using h empty
  induction es with
  | nil => simp
  | cons e rest ih =>
      intro t
      simp only [List.foldl_cons, ih, find?_insert, List.reverse_cons, List.find?_append]
      by_cases h : e.1 = key
      · cases rest.reverse.find? fun e => e.1 = key <;> simp [h]
      · cases rest.reverse.find? fun e => e.1 = key <;> simp [h, Ne.symm h]

/-- Of several entries under one key it is the last that is found. -/
theorem find?_ofList_map_eq_some {f : β → κ × α} {xs : List β} {k : κ} {v : α} :
    (ofList (xs.map f)).find? k = some v ↔
      ∃ before x after, xs = before ++ x :: after ∧ (∀ y ∈ after, (f y).1 ≠ k) ∧ f x = (k, v) := by
  simp only [find?_ofList, ← List.map_reverse, List.find?_map, Option.map_eq_some_iff,
    List.find?_eq_some_iff_append, Function.comp_apply, decide_eq_true_eq]
  constructor
  · intro h
    obtain ⟨_, ⟨x, ⟨own, later, earlier, split, others⟩, rfl⟩, rfl⟩ := h
    refine ⟨earlier.reverse, x, later.reverse, ?_, ?_, Prod.ext own rfl⟩
    · rw [← List.reverse_reverse xs, split]
      simp
    · intro y hy
      simpa using others y (List.mem_reverse.1 hy)
  · intro h
    obtain ⟨before, x, after, rfl, others, own⟩ := h
    refine ⟨_, ⟨x, ⟨by rw [own], after.reverse, before.reverse, by simp, ?_⟩, rfl⟩, by rw [own]⟩
    intro y hy
    simpa using others y (List.mem_reverse.1 hy)

theorem mem_keys_ofList {es : List (κ × α)} {key : κ} :
    key ∈ (ofList es).keys ↔ key ∈ es.map Prod.fst := by
  rw [mem_keys, ← Option.isSome_iff_exists, find?_ofList, Option.isSome_map,
    List.find?_isSome]
  simp

theorem keys_ofList_of_ascending {es : List (κ × α)}
    (h : (es.map Prod.fst).Pairwise (· < ·)) : (ofList es).keys = es.map Prod.fst :=
  eq_of_ascending (ofList es).ascending_keys h fun _ => mem_keys_ofList

/-- When entries with one key agree on the value, it does not matter which of them counts. -/
theorem find?_ofList_of_agreeing {es : List (κ × α)}
    (agree : ∀ a ∈ es, ∀ b ∈ es, a.1 = b.1 → a.2 = b.2) (k : κ) (v : α) :
    (ofList es).find? k = some v ↔ (k, v) ∈ es := by
  rw [find?_ofList, Option.map_eq_some_iff]
  constructor
  · intro h
    obtain ⟨e, he, rfl⟩ := h
    have hk : e.1 = k := by simpa using List.find?_some he
    exact hk ▸ List.mem_reverse.1 (List.mem_of_find?_eq_some he)
  · intro h
    cases found : es.reverse.find? fun e => e.1 = k with
    | none =>
        have missing := List.find?_eq_none.1 found (k, v) (List.mem_reverse.2 h)
        simp at missing
    | some e =>
        have hk : e.1 = k := by simpa using List.find?_some found
        exact ⟨e, rfl, agree e (List.mem_reverse.1 (List.mem_of_find?_eq_some found)) _ h hk⟩

end DesignTokens.Table
