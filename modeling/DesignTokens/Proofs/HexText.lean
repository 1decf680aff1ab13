import DesignTokens.Colour.Hex
import DesignTokens.Proofs.Trimming

/-!
Colours survive being written and read again: the text of a colour reads back as that colour.
-/
namespace DesignTokens.Colour

open Text (isBlank hexValue? hexDigit hexValue?_hexDigit)

/-- What a colour is read for decides the wording of a failure and nothing else. -/
theorem ofHex_eq_ok {s : String} {purpose : HexUse} {c : Colour} :
    ofHex s purpose = .ok c ↔ ofDigits (hexDigits s) = .ok c := by
  unfold ofHex
  cases ofDigits (hexDigits s) <;> simp

theorem ofHex_eq_error {s : String} {purpose : HexUse} {failure : Failure} :
    ofHex s purpose = .error failure ↔
      ∃ fault, ofDigits (hexDigits s) = .error fault ∧ failure = .badHex s fault purpose := by
  unfold ofHex
  cases ofDigits (hexDigits s) <;> simp [eq_comm]

theorem ofHex_eq_ok_iff_literal {s : String} {purpose : HexUse} {c : Colour} :
    ofHex s purpose = .ok c ↔ ofHex s .literal = .ok c := ofHex_eq_ok.trans ofHex_eq_ok.symm

/-- A text is refused for the same fault whatever the colour was wanted for. -/
theorem ofHex_eq_error_iff_literal {s : String} {purpose : HexUse} {failure : Failure} :
    ofHex s purpose = .error failure ↔
      ∃ fault, ofHex s .literal = .error (.badHex s fault .literal) ∧
        failure = .badHex s fault purpose := by
  simp only [ofHex_eq_error]
  constructor
  · intro h
    obtain ⟨fault, wrong, rfl⟩ := h
    exact ⟨fault, ⟨fault, wrong, rfl⟩, rfl⟩
  · intro h
    obtain ⟨_, ⟨fault, wrong, same⟩, rfl⟩ := h
    obtain ⟨-, rfl, -⟩ := Failure.badHex.inj same
    exact ⟨_, wrong, rfl⟩

theorem isBlank_hexDigit {n : Nat} (h : n < 16) : isBlank (hexDigit n) = false := by
  revert n
  decide

theorem isBlank_of_mem_byteDigits {byte : UInt8} {c : Char} (h : c ∈ byteDigits byte) :
    isBlank c = false := by
  have := byte.toNat_lt
  simp only [byteDigits, List.mem_cons, List.not_mem_nil, or_false] at h
  rcases h with rfl | rfl <;> exact isBlank_hexDigit (by omega)

theorem mapM_byteDigits (byte : UInt8) :
    (byteDigits byte).mapM hexValue? = some [byte.toNat / 16, byte.toNat % 16] := by
  have := byte.toNat_lt
  simp [byteDigits, hexValue?_hexDigit (show byte.toNat / 16 < 16 by omega),
    hexValue?_hexDigit (show byte.toNat % 16 < 16 by omega)]

theorem bytesOfDigits_nibbles (byte : UInt8) (rest : List Nat) :
    bytesOfDigits (byte.toNat / 16 :: byte.toNat % 16 :: rest) = byte :: bytesOfDigits rest := by
  rw [bytesOfDigits, Nat.div_add_mod, UInt8.ofNat_toNat]

theorem trim_hex (c : Colour) : Text.trim c.hex.toList = c.hex.toList := by
  apply Text.trim_eq_self
  apply Text.Trimmed.of_forall
  intro d hd
  simp only [hex, String.toList_ofList, List.mem_cons, List.mem_append] at hd
  rcases hd with rfl | ((h | h) | h) | h
  · decide
  · exact isBlank_of_mem_byteDigits h
  · exact isBlank_of_mem_byteDigits h
  · exact isBlank_of_mem_byteDigits h
  · split at h
    · cases h
    · exact isBlank_of_mem_byteDigits h

theorem hexDigits_hex (c : Colour) :
    hexDigits c.hex = byteDigits c.red ++ byteDigits c.green ++ byteDigits c.blue ++
      if c.isOpaque then [] else byteDigits c.alpha := by
  rw [hexDigits, trim_hex]
  simp [hex]

theorem ofHex_hex (c : Colour) (purpose : HexUse) : ofHex c.hex purpose = .ok c := by
  obtain ⟨r, g, b, a⟩ := c
  rw [ofHex_eq_ok, hexDigits_hex, ofDigits]
  have noDigits : bytesOfDigits [] = [] := rfl
  by_cases h : a = 255
  · simp [isOpaque, h, mapM_byteDigits, bytesOfDigits_nibbles, noDigits, ofRGB]
  · simp [isOpaque, h, mapM_byteDigits, bytesOfDigits_nibbles, noDigits]

/-- Behind a number sign, lowercase digits for three channels, or for four if the last is not
full. -/
def Canonical (text : String) : Prop :=
  ∃ digits : List Char, text.toList = '#' :: digits ∧
    (∀ d ∈ digits, d ∈ "0123456789abcdef".toList) ∧
    (digits.length = 6 ∨ digits.length = 8 ∧ digits.drop 6 ≠ ['f', 'f'])

theorem hexDigit_mem {n : Nat} (h : n < 16) : hexDigit n ∈ "0123456789abcdef".toList := by
  revert n
  decide

theorem mem_of_mem_byteDigits {byte : UInt8} {d : Char} (h : d ∈ byteDigits byte) :
    d ∈ "0123456789abcdef".toList := by
  have := byte.toNat_lt
  simp only [byteDigits, List.mem_cons, List.not_mem_nil, or_false] at h
  rcases h with rfl | rfl <;> exact hexDigit_mem (by omega)

theorem byteDigits_ne {byte : UInt8} (h : byte ≠ 255) : byteDigits byte ≠ ['f', 'f'] := by
  intro full
  have values := mapM_byteDigits byte
  rw [full] at values
  have same : [15, 15] = [byte.toNat / 16, byte.toNat % 16] := Option.some.inj values
  have high : byte.toNat / 16 = 15 := by simp_all
  have low : byte.toNat % 16 = 15 := by simp_all
  apply h
  rw [← UInt8.toNat_inj]
  change byte.toNat = 255
  omega

theorem canonical_hex (c : Colour) : Canonical c.hex := by
  have channel (byte : UInt8) : (byteDigits byte).length = 2 := rfl
  refine ⟨_, by rw [hex, String.toList_ofList], ?_, ?_⟩
  · intro d hd
    simp only [List.mem_append] at hd
    rcases hd with ((h | h) | h) | h
    · exact mem_of_mem_byteDigits h
    · exact mem_of_mem_byteDigits h
    · exact mem_of_mem_byteDigits h
    · split at h
      · cases h
      · exact mem_of_mem_byteDigits h
  · cases full : c.isOpaque with
    | true => exact .inl rfl
    | false => exact .inr ⟨rfl, byteDigits_ne (by simpa [isOpaque] using full)⟩

end DesignTokens.Colour
