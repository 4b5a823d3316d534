/- Foundation/Decimal
   digest: Decimal numerals, as they are printed and filled up to a width. -/

import Mathlib.Algebra.Order.Ring.Int
import Mathlib.Data.Char
import Mathlib.Data.List.Lex

set_option autoImplicit false
set_option relaxedAutoImplicit false

namespace L3Firewall.Foundation.Decimal

theorem isDigit_of_mem_repr {n : Nat} {c : Char} (member : c ∈ (Nat.repr n).toList) :
    c.isDigit = true := by
  rw [Nat.toList_repr] at member
  exact Nat.isDigit_of_mem_toDigits (by decide) (by decide) member

theorem toList_repr_inj {m n : Nat} (same : (Nat.repr m).toList = (Nat.repr n).toList) :
    m = n := by
  rw [Nat.toList_repr, Nat.toList_repr] at same
  rw [← @Nat.ofDigitChars_ten_toDigits m, same, Nat.ofDigitChars_ten_toDigits]

theorem toDigits_first (n : Nat) : ∃ d cs, Nat.toDigits 10 n = d :: cs ∧ (d = '0' → cs = []) := by
  induction n using Nat.strongRecOn with
  | _ n ih =>
      rw [Nat.toDigits_eq_if (by decide)]
      split
      · exact ⟨_, [], rfl, fun _ => rfl⟩
      · next many =>
          obtain ⟨d, cs, text, alone⟩ := ih (n / 10) (by omega)
          refine ⟨d, cs ++ [(n % 10).digitChar], ?_, ?_⟩
          · rw [text, List.cons_append]
          · intro zero
            have single : Nat.toDigits 10 (n / 10) = ['0'] := by rw [text, zero, alone zero]
            have none : n / 10 = 0 := by
              rw [← @Nat.ofDigitChars_ten_toDigits (n / 10), single]
              rfl
            omega

/-! Numbers of a fixed width. -/

/-- A decimal number, filled up with zeros on the left. -/
def padded (width n : Nat) : List Char :=
  List.replicate (width - (Nat.toDigits 10 n).length) '0' ++ Nat.toDigits 10 n

def digits : Nat → Nat → List Char
  | 0, _ => []
  | width + 1, n => digits width (n / 10) ++ [Nat.digitChar (n % 10)]

@[simp] theorem digits_length (width n : Nat) : (digits width n).length = width := by
  induction width generalizing n with
  | zero => rfl
  | succ width ih => rw [digits, List.length_append, ih, List.length_singleton]

private theorem digits_zero (width : Nat) : digits width 0 = List.replicate width '0' := by
  induction width with
  | zero => rfl
  | succ width ih =>
      have zero : Nat.digitChar (0 % 10) = '0' := rfl
      rw [digits, Nat.zero_div, ih, zero, ← List.replicate_succ']

theorem padded_eq_digits {width n : Nat} (some_width : 0 < width) (fits : n < 10 ^ width) :
    padded width n = digits width n := by
  induction width generalizing n with
  | zero => exact absurd some_width (Nat.lt_irrefl 0)
  | succ width ih =>
      unfold padded
      rw [Nat.toDigits_eq_if (by decide), digits]
      by_cases small : n < 10
      · have above : n / 10 = 0 := Nat.div_eq_of_lt small
        have last : n % 10 = n := Nat.mod_eq_of_lt small
        rw [if_pos small, above, last, digits_zero]
        rfl
      · have wide : 0 < width := by
          rcases Nat.eq_zero_or_pos width with rfl | wide
          · exact absurd fits small
          · exact wide
        have head : n / 10 < 10 ^ width := by
          rw [Nat.pow_succ] at fits
          omega
        rw [if_neg small, ← ih wide head, padded, List.length_append, List.length_singleton,
          Nat.add_sub_add_right, List.append_assoc]

private theorem append_lt_append {α : Type} [LT α] {x x' : List α} (lower : x < x')
    (even : x.length = x'.length) (y y' : List α) : x ++ y < x' ++ y' := by
  induction x generalizing x' with
  | nil =>
      obtain rfl := List.length_eq_zero_iff.mp even.symm
      exact absurd lower (List.not_lt_nil [])
  | cons a x ih =>
      cases x' with
      | nil => exact absurd even (by simp)
      | cons b x' =>
          rw [List.cons_append, List.cons_append, List.cons_lt_cons_iff]
          rcases List.cons_lt_cons_iff.mp lower with first | ⟨same, rest⟩
          · exact .inl first
          · exact .inr ⟨same, ih rest (by simpa using even)⟩

private theorem digitChar_lt {a b : Nat} (lower : a < b) (small : b < 10) :
    Nat.digitChar a < Nat.digitChar b := by
  have table : ∀ b < 10, ∀ a < b, Nat.digitChar a < Nat.digitChar b := by decide
  exact table b small a lower

theorem digits_lt {width a b : Nat} (lower : a < b) (fits : b < 10 ^ width) :
    digits width a < digits width b := by
  induction width generalizing a b with
  | zero =>
      rw [Nat.pow_zero] at fits
      omega
  | succ width ih =>
      rw [Nat.pow_succ] at fits
      rw [digits, digits]
      by_cases head : a / 10 < b / 10
      · exact append_lt_append (ih head (by omega)) (by simp) _ _
      · have same : a / 10 = b / 10 := by omega
        have last : a % 10 < b % 10 := by omega
        rw [same]
        apply List.append_left_lt
        exact List.cons_lt_cons_iff.mpr (.inl (digitChar_lt last (Nat.mod_lt b (by decide))))

theorem padded_lt {width a b : Nat} {x y : List Char} (some_width : 0 < width)
    (fits : b < 10 ^ width) (order : a < b ∨ a = b ∧ x < y) :
    padded width a ++ x < padded width b ++ y := by
  rcases order with lower | ⟨rfl, rest⟩
  · rw [padded_eq_digits some_width (Nat.lt_trans lower fits), padded_eq_digits some_width fits]
    exact append_lt_append (digits_lt lower fits) (by simp) x y
  · exact List.append_left_lt rest

end L3Firewall.Foundation.Decimal
