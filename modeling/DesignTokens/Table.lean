/-!
Finite maps whose entries are kept in ascending order of their keys, each key once. The order of
the entries is part of the type, so whatever is read out of a table comes in that order.
-/
namespace DesignTokens

/-- What `<` has to satisfy for keys to have one ascending order. -/
class KeyOrder (κ : Type) [LT κ] : Prop where
  irrefl : ∀ a : κ, ¬ a < a
  trans : ∀ {a b c : κ}, a < b → b < c → a < c
  connected : ∀ {a b : κ}, ¬ a < b → ¬ b < a → a = b

instance : KeyOrder String where
  irrefl := String.lt_irrefl
  trans := String.lt_trans
  connected h h' := String.le_antisymm (String.not_lt.1 h') (String.not_lt.1 h)

structure Table (κ α : Type) [LT κ] where
  entries : List (κ × α)
  ascending : entries.Pairwise fun a b => a.1 < b.1

namespace Table
variable {κ α β : Type} [LT κ]

def empty : Table κ α := ⟨[], .nil⟩

instance : Inhabited (Table κ α) := ⟨empty⟩

def keys (t : Table κ α) : List κ := t.entries.map Prod.fst

def size (t : Table κ α) : Nat := t.entries.length

def find? [DecidableEq κ] (t : Table κ α) (k : κ) : Option α :=
  (t.entries.find? fun e => e.1 = k).map Prod.snd

def erase [DecidableEq κ] (t : Table κ α) (k : κ) : Table κ α where
  entries := t.entries.filter fun e => e.1 ≠ k
  ascending := t.ascending.filter _

def mapValues (f : κ → α → β) (t : Table κ α) : Table κ β where
  entries := t.entries.map fun e => (e.1, f e.1 e.2)
  ascending := List.pairwise_map.2 t.ascending

variable [DecidableLT κ]

/-- Inserts at the place of the key, where an entry with the same key is replaced. -/
def insertEntry (k : κ) (v : α) : List (κ × α) → List (κ × α)
  | [] => [(k, v)]
  | e :: rest =>
    if k < e.1 then (k, v) :: e :: rest
    else if e.1 < k then e :: insertEntry k v rest
    else (k, v) :: rest

theorem mem_insertEntry {k : κ} {v : α} {e : κ × α} {es : List (κ × α)}
    (h : e ∈ insertEntry k v es) : e = (k, v) ∨ e ∈ es := by
  induction es with
  | nil => exact Or.inl (by simpa [insertEntry] using h)
  | cons d rest ih =>
      rw [insertEntry] at h
      split at h
      · simpa using h
      · split at h
        · rcases List.mem_cons.1 h with rfl | h
          · exact Or.inr List.mem_cons_self
          · exact (ih h).imp_right (List.mem_cons_of_mem _)
        · rcases List.mem_cons.1 h with rfl | h
          · exact Or.inl rfl
          · exact Or.inr (List.mem_cons_of_mem _ h)

variable [KeyOrder κ]

theorem ascending_insertEntry (k : κ) (v : α) {es : List (κ × α)}
    (h : es.Pairwise fun a b => a.1 < b.1) :
    (insertEntry k v es).Pairwise fun a b => a.1 < b.1 := by
  induction es with
  | nil => simp [insertEntry]
  | cons d rest ih =>
      obtain ⟨hd, hr⟩ := List.pairwise_cons.1 h
      rw [insertEntry]
      split
      · rename_i hk
        refine List.pairwise_cons.2 ⟨?_, h⟩
        intro e he
        rcases List.mem_cons.1 he with rfl | he
        · exact hk
        · exact KeyOrder.trans hk (hd e he)
      · rename_i hk
        split
        · rename_i hd'
          refine List.pairwise_cons.2 ⟨?_, ih hr⟩
          intro e he
          rcases mem_insertEntry he with rfl | he
          · exact hd'
          · exact hd e he
        · rename_i hd'
          have : k = d.1 := KeyOrder.connected hk hd'
          refine List.pairwise_cons.2 ⟨?_, hr⟩
          intro e he
          exact this ▸ hd e he

def insert (t : Table κ α) (k : κ) (v : α) : Table κ α where
  entries := insertEntry k v t.entries
  ascending := ascending_insertEntry k v t.ascending

/-- Of several entries with one key the last counts. -/
def ofList (es : List (κ × α)) : Table κ α :=
  es.foldl (fun t e => t.insert e.1 e.2) empty

end Table

end DesignTokens
