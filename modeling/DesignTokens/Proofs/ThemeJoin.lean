import DesignTokens.Theme.Merge
import DesignTokens.Proofs.ThemeReading

/-!
Joining two themes: the join has an entry for every name that both define, with the colours that
the two values spell, and there is a join exactly when all those values spell colours.
-/
namespace DesignTokens.Theme

theorem find?_byName {categories : Table String Json} {p : Palette} {variant : Variant}
    {root : String} {t : Theme} (h : read categories p variant root = .ok t) (name : TokenName)
    (value : String) :
    t.byName.find? name = some value ↔
      ∃ leaf, leafAt? categories name.category name.token = some leaf ∧
        resolveValue p root name.token leaf.value = .ok value := by
  have entries := mem_entries_of_read h
  rw [byName, Table.find?_ofList_of_agreeing]
  · simp only [List.mem_map, entries, Prod.mk.injEq]
    constructor
    · intro h
      obtain ⟨entry, ⟨leaf, value, atLeaf, resolves, hleaf⟩, rfl, rfl⟩ := h
      exact ⟨leaf, atLeaf, by rwa [hleaf]⟩
    · intro h
      obtain ⟨leaf, atLeaf, resolves⟩ := h
      exact ⟨⟨name.category, name.token, { leaf with value := value }⟩,
        ⟨leaf, value, atLeaf, resolves, rfl⟩, rfl, rfl⟩
  · intro a ha b hb same
    obtain ⟨entry, hentry, rfl⟩ := List.mem_map.1 ha
    obtain ⟨other, hother, rfl⟩ := List.mem_map.1 hb
    obtain ⟨leaf, value, atLeaf, resolves, hleaf⟩ := (entries entry).1 hentry
    obtain ⟨leaf', value', atLeaf', resolves', hleaf'⟩ := (entries other).1 hother
    obtain ⟨category, token⟩ : entry.category = other.category ∧ entry.token = other.token := by
      simpa using same
    rw [category, token] at atLeaf
    obtain rfl : leaf = leaf' := Option.some.inj (atLeaf.symm.trans atLeaf')
    rw [token] at resolves
    rw [hleaf, hleaf']
    exact Except.ok.inj (resolves.symm.trans resolves')

theorem mem_commonValues {light dark : Table TokenName String} {name : TokenName} {l d : String} :
    (name, l, d) ∈ commonValues light dark ↔
      light.find? name = some l ∧ dark.find? name = some d := by
  simp only [commonValues, List.mem_filterMap, Prod.exists, Option.map_eq_some_iff, Prod.mk.injEq,
    ← Table.find?_eq_some]
  constructor
  · intro h
    obtain ⟨name, l, inLight, d, inDark, rfl, rfl, rfl⟩ := h
    exact ⟨inLight, inDark⟩
  · intro h
    obtain ⟨inLight, inDark⟩ := h
    exact ⟨name, l, inLight, d, inDark, rfl, rfl, rfl⟩

theorem mergeEntry_eq_ok {name : TokenName} {l d : String} {entry : MergedEntry} :
    mergeEntry name l d = .ok entry ↔
      entry.name = name ∧ colourOf .light name l = .ok entry.light ∧
        colourOf .dark name d = .ok entry.dark := by
  simp only [mergeEntry, bind_eq_ok]
  constructor
  · intro h
    obtain ⟨light, hl, dark, hd, h⟩ := h
    obtain rfl := Except.ok.inj h
    exact ⟨rfl, hl, hd⟩
  · intro h
    obtain ⟨rfl, hl, hd⟩ := h
    exact ⟨_, hl, _, hd, rfl⟩

variable {light dark : Theme}

theorem merge_eq_ok {m : Merged} :
    light.merge dark = .ok m ↔
      (commonValues light.byName dark.byName).mapM (fun (name, l, d) => mergeEntry name l d) =
          .ok m.entries ∧
        m.lightOnly = namesOnlyIn light.byName dark.byName ∧
        m.darkOnly = namesOnlyIn dark.byName light.byName := by
  simp only [merge, bind_eq_ok]
  constructor
  · intro h
    obtain ⟨entries, hentries, h⟩ := h
    obtain rfl := Except.ok.inj h
    exact ⟨hentries, rfl, rfl⟩
  · intro h
    obtain ⟨hentries, hlight, hdark⟩ := h
    exact ⟨m.entries, hentries, by rw [← hlight, ← hdark]; rfl⟩

theorem merge_succeeds :
    (∃ m, light.merge dark = .ok m) ↔
      ∀ name l d, light.byName.find? name = some l → dark.byName.find? name = some d →
        (∃ c, colourOf .light name l = .ok c) ∧ ∃ c, colourOf .dark name d = .ok c := by
  have joined : (∃ m, light.merge dark = .ok m) ↔
      ∃ entries, (commonValues light.byName dark.byName).mapM
        (fun (name, l, d) => mergeEntry name l d) = .ok entries := by
    simp only [merge_eq_ok]
    exact ⟨fun ⟨m, h, _⟩ => ⟨m.entries, h⟩, fun ⟨entries, h⟩ => ⟨⟨entries, _, _⟩, h, rfl, rfl⟩⟩
  simp only [joined, mapM_succeeds, Prod.forall, mem_commonValues, mergeEntry_eq_ok, and_imp]
  refine forall₅_congr fun name l d _ _ => ?_
  constructor
  · intro h
    obtain ⟨entry, -, hl, hd⟩ := h
    exact ⟨⟨_, hl⟩, _, hd⟩
  · intro h
    obtain ⟨⟨a, hl⟩, b, hd⟩ := h
    exact ⟨⟨name, a, b⟩, rfl, hl, hd⟩

theorem mem_entries_of_merge {m : Merged} (h : light.merge dark = .ok m) (entry : MergedEntry) :
    entry ∈ m.entries ↔
      ∃ l d, light.byName.find? entry.name = some l ∧ dark.byName.find? entry.name = some d ∧
        colourOf .light entry.name l = .ok entry.light ∧
        colourOf .dark entry.name d = .ok entry.dark := by
  simp only [mem_of_mapM_eq_ok (merge_eq_ok.1 h).1, Prod.exists, mem_commonValues,
    mergeEntry_eq_ok]
  constructor
  · intro h
    obtain ⟨name, l, d, ⟨inLight, inDark⟩, rfl, hl, hd⟩ := h
    exact ⟨l, d, inLight, inDark, hl, hd⟩
  · intro h
    obtain ⟨l, d, inLight, inDark, hl, hd⟩ := h
    exact ⟨entry.name, l, d, ⟨inLight, inDark⟩, rfl, hl, hd⟩

end DesignTokens.Theme
