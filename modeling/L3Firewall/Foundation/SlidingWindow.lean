/- Foundation/SlidingWindow
   digest: A ring of stamped counters counts the events of a sliding window. -/

import Mathlib.Algebra.BigOperators.Fin
import Mathlib.Data.List.Count
import Mathlib.Data.Nat.ModEq

set_option autoImplicit false
set_option relaxedAutoImplicit false

namespace L3Firewall.Foundation.SlidingWindow

variable {n : Nat} [NeZero n] {stamps counts : Fin n → Nat} {history : List Nat} {now : Nat}

/-- Each slot counts the events of one period, the latest of those that share the slot. The
stamp 0 marks a slot that was never used; stale slots are not cleared. -/
structure Rings (stamps counts : Fin n → Nat) (history : List Nat) : Prop where
  positive : ∀ t ∈ history, 0 < t
  count : ∀ i, counts i = history.count (stamps i)
  latest : ∀ t ∈ history, t ≤ stamps (Fin.ofNat n t)
  known : ∀ i, stamps i = 0 ∨ stamps i ∈ history ∧ Fin.ofNat n (stamps i) = i

theorem Rings.empty : Rings (fun _ : Fin n => 0) (fun _ => 0) [] :=
  ⟨by simp, by simp, by simp, fun _ => Or.inl rfl⟩

theorem Rings.record (rings : Rings stamps counts history) (positive : 0 < now)
    (late : ∀ t ∈ history, t ≤ now) :
    Rings (Function.update stamps (Fin.ofNat n now) now)
      (Function.update counts (Fin.ofNat n now)
        ((if stamps (Fin.ofNat n now) = now then counts (Fin.ofNat n now) else 0) + 1))
      (history ++ [now]) := by
  -- Either the slot has the events of this period, or there were none yet.
  have seen : (if stamps (Fin.ofNat n now) = now then counts (Fin.ofNat n now) else 0) =
      history.count now := by
    split
    · next same => rw [rings.count, same]
    · next other =>
        symm
        apply List.count_eq_zero.mpr
        intro member
        have reached := rings.latest now member
        rcases rings.known (Fin.ofNat n now) with unused | ⟨past, -⟩
        · omega
        · have bound := late _ past
          omega
  refine ⟨?_, ?_, ?_, ?_⟩
  · intro t member
    rcases List.mem_append.mp member with before | new
    · exact rings.positive t before
    · rw [List.mem_singleton.mp new]
      exact positive
  · intro i
    by_cases here : i = Fin.ofNat n now
    · subst here
      rw [Function.update_self, Function.update_self, seen, List.count_append,
        List.count_singleton_self]
    · rw [Function.update_of_ne here, Function.update_of_ne here, rings.count, List.count_append]
      have apart : stamps i ≠ now := by
        intro same
        rcases rings.known i with unused | ⟨-, own⟩
        · omega
        · rw [same] at own
          exact here own.symm
      rw [List.count_singleton, if_neg (by simpa using apart.symm), Nat.add_zero]
  · intro t member
    have bound : t ≤ now := by
      rcases List.mem_append.mp member with before | new
      · exact late t before
      · exact (List.mem_singleton.mp new).le
    by_cases here : Fin.ofNat n t = Fin.ofNat n now
    · rw [here, Function.update_self]
      exact bound
    · rw [Function.update_of_ne here]
      rcases List.mem_append.mp member with before | new
      · exact rings.latest t before
      · exact absurd (congrArg (Fin.ofNat n) (List.mem_singleton.mp new)) here
  · intro i
    by_cases here : i = Fin.ofNat n now
    · subst here
      rw [Function.update_self]
      exact Or.inr ⟨by simp, rfl⟩
    · rw [Function.update_of_ne here]
      rcases rings.known i with unused | ⟨past, own⟩
      · exact Or.inl unused
      · exact Or.inr ⟨List.mem_append_left _ past, own⟩

private theorem countP_slots (p : Nat → Bool) (history : List Nat) :
    ∑ i : Fin n, history.countP (fun t => p t && decide (Fin.ofNat n t = i)) =
      history.countP p := by
  induction history with
  | nil => simp
  | cons t rest ih =>
      simp only [List.countP_cons, Finset.sum_add_distrib, ih]
      congr 1
      cases p t <;> simp

private theorem Rings.stamped (rings : Rings stamps counts history) (late : ∀ t ∈ history, t ≤ now)
    {t : Nat} (member : t ∈ history) (recent : now < t + n) : stamps (Fin.ofNat n t) = t := by
  have reached := rings.latest t member
  have positive := rings.positive t member
  rcases rings.known (Fin.ofNat n t) with unused | ⟨past, own⟩
  · omega
  · have bound := late _ past
    have residue : stamps (Fin.ofNat n t) % n = t % n := congrArg Fin.val own
    have multiple : n ∣ stamps (Fin.ofNat n t) - t :=
      (Nat.modEq_iff_dvd' reached).mp residue.symm
    have small : stamps (Fin.ofNat n t) - t < n := by omega
    have none_over := Nat.eq_zero_of_dvd_of_lt multiple small
    omega

theorem Rings.sum (rings : Rings stamps counts history) (late : ∀ t ∈ history, t ≤ now) :
    ∑ i, (if stamps i ≠ 0 ∧ now < stamps i + n then counts i else 0) =
      history.countP (fun t => decide (now < t + n)) := by
  rw [← countP_slots (n := n)]
  apply Finset.sum_congr rfl
  intro i _
  by_cases inside : stamps i ≠ 0 ∧ now < stamps i + n
  · rw [if_pos inside, rings.count, List.count]
    apply List.countP_congr
    intro t member
    rw [beq_iff_eq, Bool.and_eq_true, decide_eq_true_eq, decide_eq_true_eq]
    constructor
    · rintro rfl
      rcases rings.known i with unused | ⟨-, own⟩
      · exact absurd unused inside.1
      · exact ⟨inside.2, own⟩
    · rintro ⟨recent, rfl⟩
      exact (rings.stamped late member recent).symm
  · rw [if_neg inside]
    symm
    apply List.countP_eq_zero.mpr
    intro t member
    rw [Bool.and_eq_true, decide_eq_true_eq, decide_eq_true_eq]
    rintro ⟨recent, rfl⟩
    have stamp := rings.stamped late member recent
    have positive := rings.positive t member
    exact inside ⟨by omega, by omega⟩

end L3Firewall.Foundation.SlidingWindow
