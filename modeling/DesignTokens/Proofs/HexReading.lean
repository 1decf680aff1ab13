import DesignTokens.Proofs.AsciiFolding
import DesignTokens.Proofs.ChannelIntensity
import DesignTokens.Proofs.HexText

/-!
Which texts are read as colours, and what is printed for them. The text of a colour is that of the
digits it was read from, in lower case and without a full alpha channel, also when the channels
are kept as intensities in between.
-/
namespace DesignTokens

namespace Text

def hexAlphabet : List Char := "0123456789abcdefABCDEF".toList

theorem hexValue?_of_mem_hexAlphabet {c : Char} (h : c ∈ hexAlphabet) :
    ∃ n, hexValue? c = some n := by
  have all : hexAlphabet.all fun c => (hexValue? c).isSome := by decide
  exact Option.isSome_iff_exists.1 (List.all_eq_true.1 all c h)

/-- A character with a value is one of the alphabet, and its lower case is the digit written for
that value. -/
theorem hexValue?_spec {c : Char} {n : Nat} (h : hexValue? c = some n) :
    n < 16 ∧ hexDigit n = c.toLower ∧ c ∈ hexAlphabet := by
  have ascii : c.toNat < 103 := by
    simp only [hexValue?, Char.isDigit, Bool.and_eq_true, decide_eq_true_eq, Char.le_def,
      UInt32.le_iff_toNat_le] at h
    split at h
    · rename_i digit
      exact Nat.lt_of_le_of_lt digit.2 (by decide)
    · split at h
      · rename_i lower
        exact Nat.lt_of_le_of_lt lower.2 (by decide)
      · split at h
        · rename_i capital
          exact Nat.lt_of_le_of_lt capital.2 (by decide)
        · cases h
  have here := of_each_below (n := 103)
    (P := fun c => (hexValue? c).all fun n => n < 16 ∧ hexDigit n = c.toLower ∧ c ∈ hexAlphabet)
    (by decide) ascii
  rwa [h, Option.all_some, decide_eq_true_eq] at here

theorem mapM_hexValue?_eq_some {digits : List Char} {values : List Nat}
    (h : digits.mapM hexValue? = some values) :
    (∀ n ∈ values, n < 16) ∧ values.map hexDigit = digits.map Char.toLower ∧
      ∀ d ∈ digits, d ∈ hexAlphabet := by
  induction digits generalizing values with
  | nil =>
      cases h
      simp
  | cons d rest ih =>
      rw [List.mapM_cons] at h
      obtain ⟨n, value, h⟩ := Option.bind_eq_some_iff.1 h
      obtain ⟨others, values, h⟩ := Option.bind_eq_some_iff.1 h
      cases h
      obtain ⟨small, lower, digit⟩ := hexValue?_spec value
      obtain ⟨allSmall, allLower, allDigits⟩ := ih values
      refine ⟨List.forall_mem_cons.2 ⟨small, allSmall⟩, ?_,
        List.forall_mem_cons.2 ⟨digit, allDigits⟩⟩
      rw [List.map_cons, List.map_cons, lower, allLower]

theorem mapM_hexValue?_succeeds {digits : List Char} :
    (∃ values, digits.mapM hexValue? = some values) ↔ ∀ d ∈ digits, d ∈ hexAlphabet := by
  constructor
  · rintro ⟨values, h⟩
    exact (mapM_hexValue?_eq_some h).2.2
  · intro h
    induction digits with
    | nil => exact ⟨[], rfl⟩
    | cons d rest ih =>
        obtain ⟨digit, digits⟩ := List.forall_mem_cons.1 h
        obtain ⟨n, value⟩ := hexValue?_of_mem_hexAlphabet digit
        obtain ⟨values, values_eq⟩ := ih digits
        exact ⟨n :: values, by rw [List.mapM_cons, value, values_eq]; rfl⟩

end Text

namespace Colour

open Text (hexAlphabet hexValue? hexDigit)

/-! Digits and the bytes they spell. -/

theorem length_bytesOfDigits (values : List Nat) :
    (bytesOfDigits values).length = values.length / 2 := by
  fun_induction bytesOfDigits values with
  | case1 high low rest ih =>
      simp only [List.length_cons, ih]
      omega
  | case2 values short =>
      match values, short with
      | [], _ => rfl
      | [_], _ => simp
      | high :: low :: rest, short => exact absurd rfl (short high low rest)

theorem byteDigits_ofNibbles {high low : Nat} (h : high < 16) (l : low < 16) :
    byteDigits (UInt8.ofNat (16 * high + low)) = [hexDigit high, hexDigit low] := by
  have whole : (UInt8.ofNat (16 * high + low)).toNat = 16 * high + low := by
    rw [UInt8.toNat_ofNat', Nat.mod_eq_of_lt]
    omega
  have upper : (16 * high + low) / 16 = high := by omega
  have lower : (16 * high + low) % 16 = low := by omega
  rw [byteDigits, whole, upper, lower]

/-- Digits in pairs are those of the bytes they spell. -/
theorem flatMap_byteDigits {values : List Nat} (even : values.length % 2 = 0)
    (small : ∀ n ∈ values, n < 16) :
    (bytesOfDigits values).flatMap byteDigits = values.map hexDigit := by
  fun_induction bytesOfDigits values with
  | case1 high low rest ih =>
      simp only [List.forall_mem_cons] at small
      obtain ⟨h, l, others⟩ := small
      have evenRest : rest.length % 2 = 0 := by
        simp only [List.length_cons] at even
        omega
      rw [List.flatMap_cons, ih evenRest others, byteDigits_ofNibbles h l]
      rfl
  | case2 values short =>
      match values, short with
      | [], _ => rfl
      | [_], _ => cases even
      | high :: low :: rest, short => exact absurd rfl (short high low rest)

/-- What a colour prints behind the number sign when no channel is left out. -/
def allDigits (c : Colour) : List Char :=
  [c.red, c.green, c.blue, c.alpha].flatMap byteDigits

/-- The digits without those of a full alpha channel. -/
def withoutFullAlpha (digits : List Char) : List Char :=
  if digits.drop 6 = ['f', 'f'] then digits.take 6 else digits

theorem byteDigits_eq_full_iff {byte : UInt8} : byteDigits byte = ['f', 'f'] ↔ byte = 255 := by
  constructor
  · exact fun h => Decidable.byContradiction fun other => byteDigits_ne other h
  · rintro rfl
    decide

theorem toList_hex (c : Colour) :
    c.hex.toList = '#' :: withoutFullAlpha (c.allDigits) := by
  have full : c.isOpaque = true ↔ c.allDigits.drop 6 = ['f', 'f'] := by
    rw [isOpaque, decide_eq_true_eq, ← byteDigits_eq_full_iff]
    rfl
  rw [hex, String.toList_ofList, withoutFullAlpha]
  by_cases h : c.isOpaque
  · rw [if_pos h, if_pos (full.1 h), List.append_nil]
    rfl
  · rw [if_neg h, if_neg fun same => h (full.2 same)]
    rfl

/-! Reading. -/

/-- Digits for three channels or for four. -/
def SpellsChannels (digits : List Char) : Prop :=
  (∀ d ∈ digits, d ∈ hexAlphabet) ∧ (digits.length = 6 ∨ digits.length = 8)

/-- Why digits are refused: a stray character counts more than a wrong length. -/
inductive Misspelt (digits : List Char) : HexFault → Prop
  | stray (d : Char) (present : d ∈ digits) (unknown : d ∉ hexAlphabet) :
      Misspelt digits .strayCharacter
  | length (known : ∀ d ∈ digits, d ∈ hexAlphabet) (notThree : digits.length ≠ 6)
      (notFour : digits.length ≠ 8) : Misspelt digits .wrongLength

/-- The digits with a full alpha channel if there is none. -/
def withAlphaDigits (digits : List Char) : List Char :=
  if digits.length = 6 then digits ++ ['f', 'f'] else digits

theorem length_of_mapM {digits : List Char} {values : List Nat}
    (h : digits.mapM hexValue? = some values) : values.length = digits.length := by
  have lower := congrArg List.length (Text.mapM_hexValue?_eq_some h).2.1
  rwa [List.length_map, List.length_map] at lower

theorem ofDigits_eq_ok {digits : List Char} {c : Colour} (h : ofDigits digits = .ok c) :
    SpellsChannels digits ∧ c.allDigits = withAlphaDigits (digits.map Char.toLower) := by
  unfold ofDigits at h
  split at h
  · cases h
  · rename_i values read
    obtain ⟨small, lower, known⟩ := Text.mapM_hexValue?_eq_some read
    have long := length_of_mapM read
    split at h
    · rename_i r g b six bytes
      cases h
      refine ⟨⟨known, .inl (long ▸ six)⟩, ?_⟩
      have pairs := flatMap_byteDigits (by rw [six]) small
      rw [bytes, lower] at pairs
      rw [withAlphaDigits, if_pos (by rw [List.length_map, ← long, six]), ← pairs,
        ← byteDigits_eq_full_iff.2 rfl]
      rfl
    · rename_i r g b a eight bytes
      cases h
      refine ⟨⟨known, .inr (long ▸ eight)⟩, ?_⟩
      have pairs := flatMap_byteDigits (by rw [eight]) small
      rw [bytes, lower] at pairs
      rw [withAlphaDigits, if_neg (by rw [List.length_map, ← long, eight]; decide), ← pairs]
      rfl
    · cases h

theorem ofDigits_succeeds {digits : List Char} (h : SpellsChannels digits) :
    ∃ c, ofDigits digits = .ok c := by
  obtain ⟨known, long⟩ := h
  obtain ⟨values, read⟩ := Text.mapM_hexValue?_succeeds.2 known
  rw [← length_of_mapM read] at long
  have half := length_bytesOfDigits values
  rcases long with six | eight
  · rw [six] at half
    obtain ⟨r, g, b, bytes⟩ := List.length_eq_three.1 half
    exact ⟨ofRGB r g b, by simp only [ofDigits, read, six, bytes]⟩
  · rw [eight] at half
    obtain ⟨r, g, b, a, bytes⟩ := List.length_eq_four.1 half
    exact ⟨⟨r, g, b, a⟩, by simp only [ofDigits, read, eight, bytes]⟩

theorem misspelt_of_ofDigits {digits : List Char} {fault : HexFault}
    (h : ofDigits digits = .error fault) : Misspelt digits fault := by
  by_cases known : ∀ d ∈ digits, d ∈ hexAlphabet
  · have short : ¬ SpellsChannels digits := by
      intro spells
      obtain ⟨c, reads⟩ := ofDigits_succeeds spells
      rw [reads] at h
      cases h
    obtain ⟨values, read⟩ := Text.mapM_hexValue?_succeeds.2 known
    simp only [ofDigits, read] at h
    split at h
    · cases h
    · cases h
    · cases h
      exact .length known (fun six => short ⟨known, .inl six⟩)
        fun eight => short ⟨known, .inr eight⟩
  · have none : digits.mapM hexValue? = none := by
      rw [Option.eq_none_iff_forall_ne_some]
      exact fun values read => known (Text.mapM_hexValue?_succeeds.1 ⟨values, read⟩)
    simp only [ofDigits, none] at h
    cases h
    push Not at known
    obtain ⟨d, present, unknown⟩ := known
    exact .stray d present unknown

theorem Misspelt.unique {digits : List Char} {fault other : HexFault} (h : Misspelt digits fault)
    (h' : Misspelt digits other) : fault = other := by
  cases h with
  | stray d present unknown =>
      cases h' with
      | stray => rfl
      | length known => exact absurd (known d present) unknown
  | length known =>
      cases h' with
      | stray d present unknown => exact absurd (known d present) unknown
      | length => rfl

theorem Misspelt.not_spellsChannels {digits : List Char} {fault : HexFault}
    (h : Misspelt digits fault) : ¬ SpellsChannels digits := by
  rintro ⟨known, six | eight⟩
  · cases h with
    | stray d present unknown => exact unknown (known d present)
    | length _ notThree => exact notThree six
  · cases h with
    | stray d present unknown => exact unknown (known d present)
    | length _ _ notFour => exact notFour eight

theorem ofDigits_eq_error {digits : List Char} {fault : HexFault} :
    ofDigits digits = .error fault ↔ Misspelt digits fault := by
  constructor
  · exact misspelt_of_ofDigits
  · intro wrong
    cases result : ofDigits digits with
    | ok c => exact absurd (ofDigits_eq_ok result).1 wrong.not_spellsChannels
    | error other => rw [(misspelt_of_ofDigits result).unique wrong]

/-- What is printed for digits that were read. -/
theorem toList_hex_of_ofDigits {digits : List Char} {c : Colour} (h : ofDigits digits = .ok c) :
    c.hex.toList = '#' :: withoutFullAlpha (digits.map Char.toLower) := by
  obtain ⟨⟨-, long⟩, spelled⟩ := ofDigits_eq_ok h
  have lower : (digits.map Char.toLower).length = digits.length := List.length_map _
  rw [toList_hex, spelled, withAlphaDigits, lower]
  rcases long with six | eight
  · rw [if_pos six]
    rw [six] at lower
    generalize digits.map Char.toLower = ds at lower
    rw [withoutFullAlpha, withoutFullAlpha, List.drop_append_of_le_length lower.ge,
      List.drop_of_length_le lower.le, List.take_append_of_le_length lower.ge,
      List.take_of_length_le lower.le]
    simp
  · rw [if_neg (by rw [eight]; decide)]

theorem hex_injective {c d : Colour} (h : c.hex = d.hex) : c = d := by
  have same := ofHex_hex c .literal
  rw [h, ofHex_hex d .literal] at same
  exact (Except.ok.inj same).symm

/-! Intensities in between. -/

/-- The channels of a colour as numbers between 0 and 1. -/
structure Intensities where
  red : Binary64
  green : Binary64
  blue : Binary64
  alpha : Binary64

def intensities (c : Colour) : Intensities :=
  ⟨intensity c.red, intensity c.green, intensity c.blue, intensity c.alpha⟩

/-- The colour whose channels are the bytes nearest to 255 times the intensities. -/
def Intensities.nearest (i : Intensities) : Colour :=
  ⟨alphaByte i.red, alphaByte i.green, alphaByte i.blue, alphaByte i.alpha⟩

theorem nearest_intensities (c : Colour) : c.intensities.nearest = c := by
  simp only [intensities, Intensities.nearest, alphaByte_intensity]

theorem intensities_inj {c d : Colour} : c.intensities = d.intensities ↔ c = d := by
  constructor
  · intro same
    rw [← nearest_intensities c, same, nearest_intensities]
  · exact congrArg intensities

/-- Around the digits of a text stand blanks, and in front of them may stand one number sign. -/
def Encloses (s : String) (digits : List Char) : Prop :=
  ∃ before sign after, s.toList = before ++ (sign ++ digits) ++ after ∧ Text.Blanks before ∧
    Text.Blanks after ∧ Text.Trimmed (sign ++ digits) ∧
    (sign = ['#'] ∨ sign = [] ∧ digits.head? ≠ some '#')

theorem encloses_iff {s : String} {digits : List Char} :
    Encloses s digits ↔ hexDigits s = digits := by
  constructor
  · rintro ⟨before, sign, after, split, front, back, trimmed, h⟩
    rw [hexDigits, split, Text.trim_padded trimmed front back]
    rcases h with rfl | ⟨rfl, other⟩
    · rfl
    · rw [List.nil_append]
      split
      · exact absurd rfl other
      · rfl
  · rintro rfl
    obtain ⟨before, after, split, front, back, trimmed⟩ := Text.exists_padding s.toList
    rw [hexDigits]
    split
    · rename_i digits signed
      rw [signed] at split trimmed
      exact ⟨before, ['#'], after, split, front, back, trimmed, .inl rfl⟩
    · rename_i unsigned
      refine ⟨before, [], after, split, front, back, trimmed, .inr ⟨rfl, ?_⟩⟩
      intro first
      obtain ⟨digits, signed⟩ := List.head?_eq_some_iff.1 first
      exact unsigned digits signed

/-- A text has one choice of digits. It is read as a colour when they spell the channels and refused
for what is wrong with them otherwise; the colour is printed with the same digits in lower case,
a full alpha channel left out, and the printed text is read as that colour. -/
theorem ofHex_reads_digits (s : String) (purpose : HexUse) :
    ∃ digits, (∀ others, Encloses s others ↔ others = digits) ∧
      ((∃ c, ofHex s purpose = .ok c) ↔ SpellsChannels digits) ∧
      (∀ failure, ofHex s purpose = .error failure ↔
        ∃ fault, failure = .badHex s fault purpose ∧ Misspelt digits fault) ∧
      (∀ c, ofHex s purpose = .ok c →
        c.intensities.nearest.hex.toList =
            '#' :: withoutFullAlpha (digits.map Char.toLower) ∧
          ∀ purpose', ofHex c.intensities.nearest.hex purpose' = .ok c) ∧
      ∀ t purpose' c d, ofHex s purpose = .ok c → ofHex t purpose' = .ok d →
        (c.intensities = d.intensities ↔
          c.intensities.nearest.hex = d.intensities.nearest.hex) := by
  refine ⟨hexDigits s, fun _ => encloses_iff.trans eq_comm, ⟨?_, ?_⟩, ?_, ?_, ?_⟩
  · rintro ⟨c, reads⟩
    exact (ofDigits_eq_ok (ofHex_eq_ok.1 reads)).1
  · intro spells
    obtain ⟨c, reads⟩ := ofDigits_succeeds spells
    exact ⟨c, ofHex_eq_ok.2 reads⟩
  · intro failure
    rw [ofHex_eq_error]
    simp only [ofDigits_eq_error, and_comm]
  · intro c reads
    rw [nearest_intensities]
    exact ⟨toList_hex_of_ofDigits (ofHex_eq_ok.1 reads), ofHex_hex c⟩
  · intro t purpose' c d _ _
    rw [intensities_inj, nearest_intensities, nearest_intensities]
    exact ⟨congrArg hex, hex_injective⟩

theorem ofHex_reads_digits_padded :
    (∃ digits, Encloses "\u2003#FFfaF5fF\n" digits ∧ SpellsChannels digits ∧
      (⟨255, 250, 245, 255⟩ : Colour).intensities.nearest.hex.toList =
        '#' :: withoutFullAlpha (digits.map Char.toLower)) ∧
      ∃ digits, Encloses " ##FFfaF5" digits ∧ digits.length = 7 ∧
        Misspelt digits .strayCharacter := by
  constructor
  · obtain ⟨digits, one, accepted, -, prints, -⟩ :=
      ofHex_reads_digits "\u2003#FFfaF5fF\n" .literal
    have answer : ofHex "\u2003#FFfaF5fF\n" .literal = .ok ⟨255, 250, 245, 255⟩ := by
      decide +kernel
    exact ⟨digits, (one _).2 rfl, accepted.1 ⟨_, answer⟩, (prints _ answer).1⟩
  · obtain ⟨digits, one, -, refused, -⟩ := ofHex_reads_digits " ##FFfaF5" .literal
    have here : Encloses " ##FFfaF5" "#FFfaF5".toList :=
      ⟨[' '], ['#'], [], by decide, by decide, by decide, by decide, .inl rfl⟩
    obtain rfl := (one _).1 here
    have answer : ofHex " ##FFfaF5" .literal =
        .error (.badHex " ##FFfaF5" .strayCharacter .literal) := by
      decide +kernel
    obtain ⟨fault, same, wrong⟩ := (refused _).1 answer
    cases same
    exact ⟨_, here, rfl, wrong⟩

end Colour

end DesignTokens
