import Mathlib.Data.List.Forall2

/-!
Computations that may fail, one after another. A sequence of them succeeds exactly when every one of
them does, and its result is then their results in order; otherwise it fails as the first one does
that fails.
-/
namespace DesignTokens
variable {ε α β : Type}

/-- In an ordered list, to stand in front of an element is to come before it. -/
theorem exists_split_iff {R : α → α → Prop} (asymm : ∀ a b, R a b → ¬ R b a) {xs : List α}
    (ordered : xs.Pairwise R) {P Q : α → Prop} :
    (∃ before x after, xs = before ++ x :: after ∧ (∀ y ∈ before, P y) ∧ Q x) ↔
      ∃ x ∈ xs, (∀ y ∈ xs, R y x → P y) ∧ Q x := by
  constructor
  · intro h
    obtain ⟨before, x, after, rfl, holds, hx⟩ := h
    refine ⟨x, by simp, ?_, hx⟩
    have behind := (List.pairwise_cons.1 (List.pairwise_append.1 ordered).2.1).1
    intro y hy earlier
    cases List.mem_append.1 hy with
    | inl hy => exact holds y hy
    | inr hy =>
        cases hy with
        | head => exact absurd earlier (asymm x x earlier)
        | tail _ hy => exact absurd earlier (asymm x y (behind y hy))
  · intro h
    obtain ⟨x, hx, holds, q⟩ := h
    obtain ⟨before, after, rfl⟩ := List.append_of_mem hx
    refine ⟨before, x, after, rfl, ?_, q⟩
    intro y hy
    apply holds y (List.mem_append_left _ hy)
    exact (List.pairwise_append.1 ordered).2.2 y hy x List.mem_cons_self

/-- To stand behind an element is to come after it. -/
theorem exists_last_split_iff {R : α → α → Prop} (asymm : ∀ a b, R a b → ¬ R b a) {xs : List α}
    (ordered : xs.Pairwise R) {P Q : α → Prop} :
    (∃ before x after, xs = before ++ x :: after ∧ (∀ y ∈ after, P y) ∧ Q x) ↔
      ∃ x ∈ xs, (∀ y ∈ xs, R x y → P y) ∧ Q x := by
  have backwards := exists_split_iff (P := P) (Q := Q) (fun a b h h' => asymm b a h h')
    (List.pairwise_reverse.2 ordered)
  simp only [List.mem_reverse] at backwards
  rw [← backwards]
  constructor
  · intro h
    obtain ⟨before, x, after, rfl, holds⟩ := h
    exact ⟨after.reverse, x, before.reverse, by simp, by simpa using holds⟩
  · intro h
    obtain ⟨before, x, after, split, holds⟩ := h
    refine ⟨after.reverse, x, before.reverse, ?_, by simpa using holds⟩
    rw [← List.reverse_reverse xs, split]
    simp

theorem bind_eq_ok {x : Except ε α} {f : α → Except ε β} {b : β} :
    x >>= f = .ok b ↔ ∃ a, x = .ok a ∧ f a = .ok b := by
  cases x <;> simp [bind, Except.bind]

theorem bind_eq_error {x : Except ε α} {f : α → Except ε β} {e : ε} :
    x >>= f = .error e ↔ x = .error e ∨ ∃ a, x = .ok a ∧ f a = .error e := by
  cases x <;> simp [bind, Except.bind]

theorem bind_pure_eq_error {x : Except ε α} {f : α → β} {e : ε} :
    (x >>= fun a => (pure (f a) : Except ε β)) = .error e ↔ x = .error e := by
  cases x <;> simp [bind, Except.bind, pure, Except.pure]

theorem map_eq_ok {x : Except ε α} {f : α → β} {b : β} :
    x.map f = .ok b ↔ ∃ a, x = .ok a ∧ f a = b := by
  cases x <;> simp [Except.map]

theorem unless_eq_ok {c : Prop} [Decidable c] {e : ε} {x : Except ε α} {a : α} :
    (if c then throw e else x) = .ok a ↔ ¬ c ∧ x = .ok a := by
  by_cases h : c <;> simp [h, throw, throwThe, MonadExceptOf.throw]

theorem toOption_eq_some {x : Except ε α} {a : α} : x.toOption = some a ↔ x = .ok a := by
  cases x <;> simp [Except.toOption]

theorem mapM_eq_ok {f : α → Except ε β} {xs : List α} {ys : List β} :
    xs.mapM f = .ok ys ↔ List.Forall₂ (fun x y => f x = .ok y) xs ys := by
  induction xs generalizing ys with
  | nil => simp [pure, Except.pure, eq_comm]
  | cons x rest ih =>
      simp only [List.mapM_cons, bind_eq_ok, ih, List.forall₂_cons_left_iff]
      constructor
      · intro h
        obtain ⟨y, hy, others, hothers, h⟩ := h
        exact ⟨y, others, hy, hothers, (Except.ok.inj h).symm⟩
      · intro h
        obtain ⟨y, others, hy, hothers, rfl⟩ := h
        exact ⟨y, hy, others, hothers, rfl⟩

theorem mem_of_mapM_eq_ok {f : α → Except ε β} {xs : List α} {ys : List β}
    (h : xs.mapM f = .ok ys) (y : β) : y ∈ ys ↔ ∃ x ∈ xs, f x = .ok y := by
  have results := mapM_eq_ok.1 h
  clear h
  induction results with
  | nil => simp
  | cons hx _ ih => simp [ih, hx, eq_comm]

theorem map_of_mapM_eq_ok {γ : Type} {f : α → Except ε β} {g : β → γ} {h : α → γ}
    (named : ∀ x y, f x = .ok y → g y = h x) {xs : List α} {ys : List β}
    (results : xs.mapM f = .ok ys) : ys.map g = xs.map h := by
  have pairs := mapM_eq_ok.1 results
  clear results
  induction pairs with
  | nil => rfl
  | cons hx _ ih => rw [List.map_cons, List.map_cons, named _ _ hx, ih]

theorem mapM_succeeds {f : α → Except ε β} {xs : List α} :
    (∃ ys, xs.mapM f = .ok ys) ↔ ∀ x ∈ xs, ∃ y, f x = .ok y := by
  induction xs with
  | nil => simp [pure, Except.pure]
  | cons x rest ih =>
      simp only [List.forall_mem_cons, ← ih, List.mapM_cons, bind_eq_ok]
      constructor
      · intro h
        obtain ⟨_, y, hy, others, hothers, -⟩ := h
        exact ⟨⟨y, hy⟩, others, hothers⟩
      · intro h
        obtain ⟨⟨y, hy⟩, others, hothers⟩ := h
        exact ⟨y :: others, y, hy, others, hothers, rfl⟩

/-- A sequence stops at the first computation that fails. -/
theorem mapM_eq_error {f : α → Except ε β} {xs : List α} {e : ε} :
    xs.mapM f = .error e ↔
      ∃ before x after, xs = before ++ x :: after ∧ (∀ y ∈ before, ∃ b, f y = .ok b) ∧
        f x = .error e := by
  induction xs with
  | nil => simp [pure, Except.pure]
  | cons x rest ih =>
      simp only [List.mapM_cons, bind_eq_error, ih]
      constructor
      · intro h
        rcases h with fails | ⟨y, hy, ⟨before, z, after, rfl, succeeds, fails⟩ | ⟨_, _, done⟩⟩
        · exact ⟨[], x, rest, rfl, by simp, fails⟩
        · exact ⟨x :: before, z, after, rfl, List.forall_mem_cons.2 ⟨⟨y, hy⟩, succeeds⟩, fails⟩
        · cases done
      · intro h
        obtain ⟨before, z, after, split, succeeds, fails⟩ := h
        cases before with
        | nil =>
            obtain ⟨rfl, rfl⟩ := List.cons.inj split
            exact .inl fails
        | cons first before =>
            obtain ⟨rfl, rfl⟩ := List.cons.inj split
            obtain ⟨⟨y, hy⟩, succeeds⟩ := List.forall_mem_cons.1 succeeds
            exact .inr ⟨y, hy, .inl ⟨before, z, after, rfl, succeeds, fails⟩⟩

theorem forM_eq_ok {f : α → Except ε Unit} {xs : List α} :
    xs.forM f = .ok () ↔ ∀ x ∈ xs, f x = .ok () := by
  induction xs with
  | nil => simp [pure, Except.pure]
  | cons x rest ih =>
      rw [List.forall_mem_cons, ← ih]
      change f x >>= (fun _ => rest.forM f) = .ok () ↔ _
      rw [bind_eq_ok]
      exact ⟨fun ⟨(), hx, hrest⟩ => ⟨hx, hrest⟩, fun ⟨hx, hrest⟩ => ⟨(), hx, hrest⟩⟩

theorem forM_eq_error {f : α → Except ε Unit} {xs : List α} {e : ε} :
    xs.forM f = .error e ↔
      ∃ before x after, xs = before ++ x :: after ∧ (∀ y ∈ before, f y = .ok ()) ∧
        f x = .error e := by
  have dropped : (xs.mapM f >>= fun _ => (pure () : Except ε Unit)) = xs.forM f := by
    induction xs with
    | nil => rfl
    | cons x rest ih =>
        change _ = f x >>= fun _ => rest.forM f
        rw [← ih, List.mapM_cons, bind_assoc]
        cases f x <;> simp
  have unit (y : α) : (∃ b, f y = .ok b) ↔ f y = .ok () :=
    ⟨fun ⟨(), hy⟩ => hy, fun hy => ⟨(), hy⟩⟩
  simp only [← dropped, bind_pure_eq_error, mapM_eq_error, unit]

end DesignTokens
