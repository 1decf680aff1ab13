import DesignTokens.Proofs.CaseImages
import DesignTokens.Text.Lowercase

/-!
Lower case of a dotted path, taken as a whole and key by key. Only the capital sigma depends on
what stands around it, and it looks past dots. So the two agree exactly when no capital sigma ends
a word of the path without ending one of its key, or the other way round.
-/
namespace DesignTokens.Text

theorem lowerChar_ne_nil (c : Char) : lowerChar c ≠ [] := by
  obtain ⟨first, rest, image, -⟩ := (recased_lowerChar c).exists_cons
  rw [image]
  exact List.cons_ne_nil first rest

theorem lowercase_ne_nil {cs : List Char} (h : cs ≠ []) : lowercase cs ≠ [] := by
  cases cs with
  | nil => exact absurd rfl h
  | cons c rest =>
      rw [lowercase, lowercaseAfter]
      split
      · simp
      · simp [lowerChar_ne_nil]

section Splitting
variable {α : Type} {P : List α → α → List α → Prop}

/-- A list is split at its first element or behind it. -/
theorem forall_split_cons {x : α} {xs : List α} :
    (∀ before y after, x :: xs = before ++ y :: after → P before y after) ↔
      P [] x xs ∧ ∀ before y after, xs = before ++ y :: after → P (x :: before) y after := by
  constructor
  · intro h
    exact ⟨h [] x xs rfl, fun before y after same => h (x :: before) y after (by rw [same]; rfl)⟩
  · intro h before y after same
    cases before with
    | nil =>
        obtain ⟨rfl, rfl⟩ := List.cons.inj same
        exact h.1
    | cons z before =>
        obtain ⟨rfl, rfl⟩ := List.cons.inj same
        exact h.2 before y after rfl

theorem append_eq_append_of_length {a b c d : List α} (h : a.length = b.length) :
    a ++ c = b ++ d ↔ a = b ∧ c = d := by
  constructor
  · intro same
    exact List.append_inj same h
  · intro same
    rw [same.1, same.2]

end Splitting

/-- Lower case of `cs` between the characters `before`, which come nearest first, and `after`. -/
def lowercaseBetween (before after : List Char) : List Char → List Char
  | [] => []
  | c :: rest =>
    let image := if c = capitalSigma then [smallSigma before (rest ++ after)] else lowerChar c
    image ++ lowercaseBetween (c :: before) after rest

theorem lowercaseAfter_append (before a b : List Char) :
    lowercaseAfter before (a ++ b) =
      lowercaseBetween before b a ++ lowercaseAfter (a.reverse ++ before) b := by
  induction a generalizing before with
  | nil => rfl
  | cons c rest ih =>
      rw [List.cons_append, lowercaseAfter, lowercaseBetween, ih]
      simp only [List.append_assoc, List.reverse_cons, List.singleton_append]

theorem lowercaseAfter_eq_between (before cs : List Char) :
    lowercaseAfter before cs = lowercaseBetween before [] cs := by
  have whole := lowercaseAfter_append before cs []
  rwa [List.append_nil, lowercaseAfter, List.append_nil] at whole

/-- What stands around a text never changes how long it is in lower case. -/
theorem length_lowercaseBetween (before after cs : List Char) :
    (lowercaseBetween before after cs).length = (lowercase cs).length := by
  suffices same : ∀ before' after', (lowercaseBetween before after cs).length =
      (lowercaseBetween before' after' cs).length by
    rw [lowercase, lowercaseAfter_eq_between]
    exact same [] []
  intro before' after'
  induction cs generalizing before before' with
  | nil => rfl
  | cons c rest ih =>
      rw [lowercaseBetween, lowercaseBetween, List.length_append, List.length_append,
        ih (c :: before) (c :: before')]
      by_cases sigma : c = capitalSigma
      · simp [sigma]
      · simp [sigma]

theorem lowercaseBetween_eq_iff {before after before' after' cs : List Char} :
    lowercaseBetween before after cs = lowercaseBetween before' after' cs ↔
      ∀ u c v, cs = u ++ c :: v → c = capitalSigma →
        smallSigma (u.reverse ++ before) (v ++ after) =
          smallSigma (u.reverse ++ before') (v ++ after') := by
  induction cs generalizing before before' with
  | nil => simp [lowercaseBetween]
  | cons c rest ih =>
      rw [forall_split_cons, lowercaseBetween, lowercaseBetween]
      by_cases sigma : c = capitalSigma
      · simp [sigma, ih]
      · simp [sigma, ih]

/-- Keys with a dot in front of each. -/
def dotted (keys : List (List Char)) : List Char := keys.flatMap fun key => '.' :: key

/-- Keys with a dot behind each. -/
def undotted (keys : List (List Char)) : List Char := keys.flatMap fun key => key ++ ['.']

/-- Some capital sigma ends a word of the dotted path but not of its own key, or the other way
round. -/
def SigmaTurns (keys : List (List Char)) : Prop :=
  ∃ before key after u v, keys = before ++ key :: after ∧ key = u ++ capitalSigma :: v ∧
    smallSigma (u.reverse ++ (undotted before).reverse) (v ++ dotted after) ≠
      smallSigma u.reverse v

theorem not_sigmaTurns {keys : List (List Char)} (h : ∀ key ∈ keys, capitalSigma ∉ key) :
    ¬ SigmaTurns keys := by
  intro turns
  obtain ⟨before, key, after, u, v, rfl, rfl, -⟩ := turns
  exact h _ (List.mem_append_right _ List.mem_cons_self)
    (List.mem_append_right _ List.mem_cons_self)

theorem lowercaseAfter_dotted (before key : List Char) (rest : List (List Char)) :
    lowercaseAfter before (key ++ dotted rest) = lowercase key ++ dotted (rest.map lowercase) ↔
      ∀ front k behind, key :: rest = front ++ k :: behind → ∀ u c v, k = u ++ c :: v →
        c = capitalSigma →
          smallSigma (u.reverse ++ ((undotted front).reverse ++ before)) (v ++ dotted behind) =
            smallSigma u.reverse v := by
  have alone (before after key : List Char) :
      lowercaseBetween before after key = lowercase key ↔
        ∀ u c v, key = u ++ c :: v → c = capitalSigma →
          smallSigma (u.reverse ++ before) (v ++ after) = smallSigma u.reverse v := by
    rw [lowercase, lowercaseAfter_eq_between, lowercaseBetween_eq_iff]
    simp only [List.append_nil]
  induction rest generalizing before key with
  | nil =>
      change lowercaseAfter before (key ++ []) = lowercase key ++ [] ↔ _
      rw [List.append_nil, List.append_nil, lowercaseAfter_eq_between, alone, forall_split_cons]
      simp [undotted, dotted]
  | cons next rest ih =>
      have first := length_lowercaseBetween before (dotted (next :: rest)) key
      have whole : lowercaseAfter before (key ++ dotted (next :: rest)) =
          lowercaseBetween before (dotted (next :: rest)) key ++
            '.' :: lowercaseAfter ('.' :: (key.reverse ++ before)) (next ++ dotted rest) := by
        rw [lowercaseAfter_append]
        rfl
      have pieces : lowercase key ++ dotted ((next :: rest).map lowercase) =
          lowercase key ++ '.' :: (lowercase next ++ dotted (rest.map lowercase)) := rfl
      have context (front : List (List Char)) :
          (undotted front).reverse ++ '.' :: (key.reverse ++ before) =
            (undotted (key :: front)).reverse ++ before := by
        simp [undotted]
      have later := ih ('.' :: (key.reverse ++ before)) next
      simp only [context] at later
      rw [whole, pieces, append_eq_append_of_length first, alone, List.cons.injEq,
        forall_split_cons]
      constructor
      · intro h
        exact ⟨h.1, later.1 h.2.2⟩
      · intro h
        exact ⟨h.1, rfl, later.2 h.2⟩

/-- Lower case key by key is lower case as a whole unless a capital sigma turns. -/
theorem lowercase_dotted (key : List Char) (rest : List (List Char)) :
    lowercase (key ++ dotted rest) = lowercase key ++ dotted (rest.map lowercase) ↔
      ¬ SigmaTurns (key :: rest) := by
  rw [lowercase, lowercaseAfter_dotted]
  simp only [SigmaTurns, not_exists, not_and, ne_eq, Decidable.not_not, List.append_nil]
  constructor
  · intro h front k behind u v same spelled
    exact h front k behind same u capitalSigma v spelled rfl
  · intro h front k behind same u c v spelled sigma
    exact h front k behind u v same (sigma ▸ spelled)

/-! Lower case makes no dots. -/

theorem eq_dot_of_mem_lowerChar {c : Char} (h : '.' ∈ lowerChar c) : c = '.' := by
  by_cases dotted : c = dottedCapitalI
  · subst dotted
    exact absurd h (by decide)
  · rcases of_mem_lowerChar dotted h with letter | same
    · exact absurd letter (by decide)
    · exact same.symm

theorem dot_ne_smallSigma (before after : List Char) : '.' ≠ smallSigma before after := by
  unfold smallSigma
  split
  · decide
  · decide

theorem dot_mem_of_mem_lowercase {cs : List Char} (h : '.' ∈ lowercase cs) : '.' ∈ cs := by
  suffices behind : ∀ before, '.' ∈ lowercaseAfter before cs → '.' ∈ cs from behind [] h
  clear h
  induction cs with
  | nil => simp [lowercaseAfter]
  | cons c rest ih =>
      intro before h
      rw [lowercaseAfter] at h
      cases List.mem_append.1 h with
      | inr later => exact List.mem_cons_of_mem c (ih (c :: before) later)
      | inl here =>
          split at here
          · exact absurd (List.mem_singleton.1 here) (dot_ne_smallSigma before rest)
          · rw [eq_dot_of_mem_lowerChar here]
            exact List.mem_cons_self

end DesignTokens.Text

namespace DesignTokens

theorem lowercase_ne_empty {key : String} (h : key ≠ "") : lowercase key ≠ "" := by
  intro empty
  refine Text.lowercase_ne_nil ?_ (String.ofList_eq_empty_iff.1 empty)
  simpa using h

end DesignTokens
