import DesignTokens.Proofs.HexReading

/-!
Alpha overrides one after another, on colours kept as intensities. Every override makes all four
channels bytes and the bytes intensities again; since a colour starts with the intensities of bytes
and every override leaves it with such, nothing drifts, and only the last alpha of a run shows.
-/
namespace DesignTokens.Colour

namespace Intensities
variable {i : Intensities}

def withAlpha (i : Intensities) (alpha : Binary64) : Intensities :=
  (i.nearest.withAlpha alpha).intensities

/-- The ways to come by a colour: from hexadecimal text, or from three or four bytes. -/
inductive Made : Intensities → Prop where
  | ofHex {s purpose c} (reads : ofHex s purpose = .ok c) : Made c.intensities
  | ofRGB (red green blue : UInt8) : Made (ofRGB red green blue).intensities
  | ofBytes (red green blue alpha : UInt8) : Made (Colour.mk red green blue alpha).intensities

/-- Every channel is the intensity of some byte. -/
def OnGrid (i : Intensities) : Prop := ∃ c : Colour, c.intensities = i

theorem Made.onGrid (h : Made i) : i.OnGrid := by
  cases h with
  | ofHex reads => exact ⟨_, rfl⟩
  | ofRGB red green blue => exact ⟨_, rfl⟩
  | ofBytes red green blue alpha => exact ⟨_, rfl⟩

theorem OnGrid.intensities_nearest (h : i.OnGrid) : i.nearest.intensities = i := by
  obtain ⟨c, rfl⟩ := h
  rw [nearest_intensities]

/-! One override. -/

theorem onGrid_withAlpha (i : Intensities) (alpha : Binary64) : (i.withAlpha alpha).OnGrid :=
  ⟨_, rfl⟩

theorem nearest_withAlpha (i : Intensities) (alpha : Binary64) :
    (i.withAlpha alpha).nearest = i.nearest.withAlpha alpha := by
  rw [withAlpha, nearest_intensities]

theorem OnGrid.withAlpha_eq (h : i.OnGrid) (alpha : Binary64) :
    i.withAlpha alpha = { i with alpha := intensity (alphaByte alpha) } := by
  obtain ⟨c, rfl⟩ := h
  rw [Intensities.withAlpha, nearest_intensities]
  simp only [Colour.withAlpha, intensities]

theorem withAlpha_withAlpha (i : Intensities) (alpha other : Binary64) :
    (i.withAlpha alpha).withAlpha other = i.withAlpha other := by
  rw [withAlpha, nearest_withAlpha]
  simp only [Colour.withAlpha, withAlpha]

/-! Runs of overrides. -/

theorem OnGrid.foldl_withAlpha (h : i.OnGrid) (alphas : List Binary64) :
    (alphas.foldl Intensities.withAlpha i).OnGrid := by
  induction alphas generalizing i with
  | nil => exact h
  | cons alpha rest ih =>
      rw [List.foldl_cons]
      exact ih (onGrid_withAlpha i alpha)

theorem foldl_withAlpha_concat (i : Intensities) (alphas : List Binary64) (last : Binary64) :
    (alphas ++ [last]).foldl withAlpha i = i.withAlpha last := by
  induction alphas generalizing i with
  | nil => rfl
  | cons alpha rest ih => rw [List.cons_append, List.foldl_cons, ih, withAlpha_withAlpha]

theorem OnGrid.foldl_withAlpha_eq (h : i.OnGrid) (alphas : List Binary64) :
    alphas.foldl Intensities.withAlpha i =
      { i with alpha := (alphas.foldl Intensities.withAlpha i).alpha } := by
  induction alphas using List.reverseRecOn with
  | nil => rfl
  | append_singleton rest last => rw [foldl_withAlpha_concat, h.withAlpha_eq]

/-- The same run on the bytes of the colour. -/
theorem nearest_foldl_withAlpha (i : Intensities) (alphas : List Binary64) :
    (alphas.foldl withAlpha i).nearest = alphas.foldl Colour.withAlpha i.nearest := by
  induction alphas generalizing i with
  | nil => rfl
  | cons alpha rest ih => rw [List.foldl_cons, List.foldl_cons, ih, nearest_withAlpha]

end Intensities

theorem exists_digits_of_hex (c : Colour) :
    ∃ digits, c.hex.toList = '#' :: digits ∧ digits.length = if c.isOpaque then 6 else 8 := by
  refine ⟨_, String.toList_ofList, ?_⟩
  cases c.isOpaque <;> rfl

/-- Of any overrides of a colour, one after another, only the last alpha shows: the other channels
keep their intensities and bytes, and the alpha byte is that of the last alpha. At every step the
bytes are those of the same run on bytes, and printing the colour, with two digits for each channel
but none for a full alpha, and reading it again gives back the same intensities. -/
theorem withAlpha_keeps_last {i : Intensities} (made : i.Made) (earlier : List Binary64)
    (last : Binary64) :
    let run := earlier ++ [last]
    run.foldl Intensities.withAlpha i = { i with alpha := intensity (alphaByte last) } ∧
    (run.foldl Intensities.withAlpha i).nearest = { i.nearest with alpha := alphaByte last } ∧
    run.foldl Intensities.withAlpha i = i.withAlpha last ∧
    (i.withAlpha last).withAlpha last = i.withAlpha last ∧
    ∀ taken, taken <+: run →
      let now := taken.foldl Intensities.withAlpha i
      now = { i with alpha := now.alpha } ∧
      now.nearest = { i.nearest with alpha := now.nearest.alpha } ∧
      now.nearest = taken.foldl withAlpha i.nearest ∧
      (∃ digits, now.nearest.hex.toList = '#' :: digits ∧
        digits.length = if now.nearest.isOpaque then 6 else 8) ∧
      ∀ purpose, ∃ c, ofHex now.nearest.hex purpose = .ok c ∧ c.intensities = now := by
  intro run
  have start := made.onGrid
  have ends : run.foldl Intensities.withAlpha i = i.withAlpha last :=
    Intensities.foldl_withAlpha_concat i earlier last
  refine ⟨ends.trans (start.withAlpha_eq last), ?_, ends,
    Intensities.withAlpha_withAlpha i last last, fun taken _ => ?_⟩
  · rw [ends, Intensities.nearest_withAlpha]
    rfl
  · have onGrid := start.foldl_withAlpha taken
    have others := start.foldl_withAlpha_eq taken
    have bytes := Intensities.nearest_foldl_withAlpha i taken
    refine ⟨others, ?_, bytes, exists_digits_of_hex _, fun purpose => ?_⟩
    · rw [others]
      rfl
    · exact ⟨_, ofHex_hex _ purpose, onGrid.intensities_nearest⟩

/-- The last alpha is one half after what is no number, infinity and negative zero, and it is no
number after one half. -/
theorem withAlpha_keeps_last_clamped :
    let start := (Colour.mk 10 171 12 255).intensities
    let half : Binary64 := ⟨0x3FE0000000000000⟩
    start.Made ∧
      ([.nan true, .infinity false, .ofMagnitudeBits true 0, half].foldl
        Intensities.withAlpha start).nearest = ⟨10, 171, 12, 128⟩ ∧
      ([half, .nan false].foldl Intensities.withAlpha start).nearest = ⟨10, 171, 12, 0⟩ := by
  intro start half
  have reads : ofHex " #0aAB0C" .literal = .ok ⟨10, 171, 12, 255⟩ := by decide +kernel
  have made : start.Made := .ofHex reads
  have bytes : start.nearest = ⟨10, 171, 12, 255⟩ := nearest_intensities _
  have halfByte : alphaByte half = 128 := by decide +kernel
  have noByte : alphaByte (.nan false) = 0 := by decide +kernel
  obtain ⟨-, first, -⟩ :=
    withAlpha_keeps_last made [.nan true, .infinity false, .ofMagnitudeBits true 0] half
  obtain ⟨-, second, -⟩ := withAlpha_keeps_last made [half] (.nan false)
  rw [bytes, halfByte] at first
  rw [bytes, noByte] at second
  exact ⟨made, first, second⟩

end DesignTokens.Colour
