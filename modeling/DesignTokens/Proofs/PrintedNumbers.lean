import DesignTokens.Proofs.BalancedText
import DesignTokens.Swift.Renderer

/-!
The characters that numbers are printed with: digits, points, signs, exponents and the letters of
the words for infinity and for what is not a number. None of them means anything to the check of
delimiters.
-/
namespace DesignTokens.Binary64
open Swift (Inert meaningful)

def isNumberChar (c : Char) : Bool := c.isDigit || c ∈ "-.einfNa".toList

/-- Text made of the characters of printed numbers. -/
def NumberText (cs : List Char) : Prop := ∀ c ∈ cs, isNumberChar c

instance (cs : List Char) : Decidable (NumberText cs) := List.decidableBAll _ cs

namespace NumberText

theorem nil : NumberText [] := by simp [NumberText]

theorem append {a b : List Char} (ha : NumberText a) (hb : NumberText b) : NumberText (a ++ b) :=
  List.forall_mem_append.2 ⟨ha, hb⟩

theorem cons {c : Char} {cs : List Char} (hc : isNumberChar c) (hcs : NumberText cs) :
    NumberText (c :: cs) := List.forall_mem_cons.2 ⟨hc, hcs⟩

theorem inert {cs : List Char} (h : NumberText cs) : Inert cs := by
  intro c hc
  exact Swift.not_mem_meaningful (by decide) (h c hc)

end NumberText

theorem numberText_digits (n : Nat) : NumberText (Nat.toDigits 10 n) := by
  intro c hc
  have digit := Nat.isDigit_of_mem_toDigits (by decide) (by decide) hc
  exact Bool.or_eq_true _ _ ▸ .inl digit

theorem numberText_integer (i : Int) : NumberText (toString i).toList := by
  have natural (n : Nat) : NumberText (Nat.repr n).toList := by
    rw [Nat.toList_repr]
    exact numberText_digits n
  rw [Int.toString_eq_repr, Int.repr_eq_if]
  split
  · exact natural _
  · rw [String.toList_append]
    exact .append (by decide) (natural _)

theorem numberText_zeros (n : Nat) : NumberText (List.replicate n '0') := by
  intro c hc
  rw [List.eq_of_mem_replicate hc]
  decide

theorem numberText_inFull (layout : Layout) {digits : List Char} (h : NumberText digits)
    (position : Int) : NumberText (layout.inFull digits position) := by
  rw [Layout.inFull]
  split
  · exact .append (.append (by decide) (numberText_zeros _)) h
  · simp only
    split
    · exact .append (fun c hc => h c (List.mem_of_mem_take hc))
        (.cons (by decide) fun c hc => h c (List.mem_of_mem_drop hc))
    · refine .append (.append h (numberText_zeros _)) ?_
      split
      · decide
      · exact .nil

theorem numberText_withExponent {digits : List Char} (h : NumberText digits) (position : Int) :
    NumberText (withExponent digits position) := by
  refine .append ?_ (.cons (by decide) (numberText_integer _))
  split
  · exact .nil
  · exact h
  · exact .cons (h _ List.mem_cons_self)
      (.cons (by decide) fun c hc => h c (List.mem_cons_of_mem _ hc))

theorem numberText_magnitude (layout : Layout) (x : Binary64) :
    NumberText (layout.magnitude x) := by
  rw [Layout.magnitude]
  split
  · split
    · decide
    · decide
  · simp only
    split
    · exact numberText_inFull layout (numberText_digits _) _
    · exact numberText_withExponent (numberText_digits _) _

theorem numberText_write (layout : Layout) (x : Binary64) : NumberText (layout.write x) := by
  rw [Layout.write]
  split
  · decide
  · have magnitude : NumberText (if x.isFinite then layout.magnitude x else "inf".toList) := by
      split
      · exact numberText_magnitude layout x
      · decide
    simp only
    split
    · exact .cons (by decide) magnitude
    · exact magnitude

end DesignTokens.Binary64

namespace DesignTokens.Swift

theorem numberText_literal (x : Binary64) : Binary64.NumberText (literal x).toList := by
  rw [literal, String.toList_ofList]
  exact Binary64.numberText_write _ x

theorem numberText_comment (x : Binary64) : Binary64.NumberText (comment x).toList := by
  rw [comment, String.toList_ofList]
  exact Binary64.numberText_write _ x

end DesignTokens.Swift
