import DesignTokens.Text.Numeral
import DesignTokens.Text.Pieces

/-!
Swift identifiers. An identifier begins with a letter or an underscore and goes on with word
characters and underscores. A reserved word can still be declared when it stands between backticks.
-/
namespace DesignTokens.Swift

def reservedWords : List String := [
  "Any", "Self", "any", "as", "associatedtype", "break", "case", "catch", "class", "continue",
  "default", "defer", "deinit", "do", "else", "enum", "extension", "fallthrough", "false",
  "fileprivate", "for", "func", "guard", "if", "import", "in", "init", "inout", "internal", "is",
  "let", "nil", "open", "operator", "private", "protocol", "public", "repeat", "rethrows",
  "return", "self", "some", "static", "struct", "subscript", "super", "switch", "throw",
  "throws", "true", "try", "typealias", "var", "where", "while"]

def isReserved (name : String) : Bool := reservedWords.contains name

def isIdentifierStart (c : Char) : Bool := Text.isLetter c || c = '_'

def isIdentifierPart (c : Char) : Bool := Text.isWordChar c || c = '_'

def isIdentifierChars : List Char → Bool
  | [] => false
  | c :: rest => isIdentifierStart c && rest.all isIdentifierPart

def isIdentifier (name : String) : Bool := isIdentifierChars name.toList

theorem isIdentifierPart_of_start {c : Char} (h : isIdentifierStart c) : isIdentifierPart c := by
  simp only [isIdentifierStart, isIdentifierPart, Text.isWordChar, Bool.or_eq_true] at h ⊢
  exact h.imp_left .inl

theorem isIdentifierChars_cons {c : Char} {rest : List Char} :
    isIdentifierChars (c :: rest) ↔
      isIdentifierStart c ∧ ∀ d ∈ c :: rest, isIdentifierPart d := by
  simp only [isIdentifierChars, Bool.and_eq_true, List.all_eq_true, List.forall_mem_cons]
  constructor
  · intro h
    exact ⟨h.1, isIdentifierPart_of_start h.1, h.2⟩
  · intro h
    exact ⟨h.1, h.2.2⟩

theorem isIdentifierPart_of_mem {cs : List Char} (h : isIdentifierChars cs) {c : Char}
    (hc : c ∈ cs) : isIdentifierPart c := by
  cases cs with
  | nil => cases hc
  | cons d rest => exact (isIdentifierChars_cons.1 h).2 c hc

def backtick : Char := '\x60'

def quote (name : String) : String :=
  String.singleton backtick ++ name ++ String.singleton backtick

/-- Puts a reserved word between backticks. -/
def escape (name : String) : String := if isReserved name then quote name else name

/-- The name without one pair of backticks around it. -/
def unquote (name : String) : String :=
  match name.toList with
  | c :: rest =>
    if c = backtick then ((Text.dropEnd? [backtick] rest).map String.ofList).getD name else name
  | [] => name

end DesignTokens.Swift
