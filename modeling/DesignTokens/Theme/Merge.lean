import DesignTokens.Theme.Extract

/-!
Joining the light and the dark theme on category and token. Only what both define is kept, as a
pair of colours; the names that one of them lacks are listed, and their values are never looked at.
-/
namespace DesignTokens

structure TokenName where
  category : String
  token : String
deriving DecidableEq, Repr

namespace TokenName

instance : LT TokenName where
  lt a b := a.category < b.category ∨ (a.category = b.category ∧ a.token < b.token)

instance : DecidableLT TokenName := fun a b =>
  inferInstanceAs (Decidable (a.category < b.category ∨
    (a.category = b.category ∧ a.token < b.token)))

instance : KeyOrder TokenName where
  irrefl a h := by
    rcases h with h | ⟨-, h⟩ <;> exact String.lt_irrefl _ h
  trans h h' := by
    rcases h with h | ⟨e, h⟩ <;> rcases h' with h' | ⟨e', h'⟩
    · exact Or.inl (String.lt_trans h h')
    · exact Or.inl (e' ▸ h)
    · exact Or.inl (e ▸ h')
    · exact Or.inr ⟨e.trans e', String.lt_trans h h'⟩
  connected {a b} h h' := by
    have hc : a.category = b.category :=
      KeyOrder.connected (fun k => h (Or.inl k)) (fun k => h' (Or.inl k))
    have ht : a.token = b.token :=
      KeyOrder.connected (fun k => h (Or.inr ⟨hc, k⟩)) (fun k => h' (Or.inr ⟨hc.symm, k⟩))
    cases a
    cases b
    simp_all

end TokenName

/-- A token that both themes define. -/
structure MergedEntry where
  name : TokenName
  light : Colour
  dark : Colour
deriving DecidableEq, Repr

structure Merged where
  entries : List MergedEntry
  lightOnly : List TokenName
  darkOnly : List TokenName
deriving DecidableEq, Repr

namespace Merged

def dropped (m : Merged) : Nat := m.lightOnly.length + m.darkOnly.length

end Merged

namespace Theme

def byName (t : Theme) : Table TokenName String :=
  Table.ofList (t.entries.map fun e => (⟨e.category, e.token⟩, e.leaf.value))

def colourOf (variant : Variant) (name : TokenName) (value : String) : Except Failure Colour :=
  Colour.ofHex value (.themed variant name.category name.token)

def mergeEntry (name : TokenName) (light dark : String) : Except Failure MergedEntry := do
  let light ← colourOf .light name light
  let dark ← colourOf .dark name dark
  return ⟨name, light, dark⟩

/-- The names in both tables with the two values, in ascending order. -/
def commonValues (light dark : Table TokenName String) :
    List (TokenName × String × String) :=
  light.entries.filterMap fun (name, value) =>
    (dark.find? name).map fun other => (name, value, other)

def namesOnlyIn (a b : Table TokenName String) : List TokenName :=
  a.keys.filter fun name => (b.find? name).isNone

def merge (light dark : Theme) : Except Failure Merged := do
  let light := light.byName
  let dark := dark.byName
  let entries ← (commonValues light dark).mapM fun (name, l, d) => mergeEntry name l d
  return ⟨entries, namesOnlyIn light dark, namesOnlyIn dark light⟩

end Theme

end DesignTokens
