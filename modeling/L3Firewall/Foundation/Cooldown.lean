/- Foundation/Cooldown
   digest: Times that are kept when each must be a gap away from the last one kept, and that no
   other choice keeps more of them. -/

import Mathlib.Data.List.Chain

set_option autoImplicit false
set_option relaxedAutoImplicit false

namespace L3Firewall.Foundation.Cooldown

def keep (gap : Nat) : Option Nat → List Nat → List Nat
  | _, [] => []
  | none, t :: rest => t :: keep gap (some t) rest
  | some last, t :: rest =>
      if t < last + gap then keep gap (some last) rest else t :: keep gap (some t) rest

def Apart (gap s t : Nat) : Prop := s + gap ≤ t

variable {gap last : Nat} {times : List Nat}

private theorem keep_apart (gap last : Nat) (times : List Nat) :
    (last :: keep gap (some last) times).IsChain (Apart gap) := by
  induction times generalizing last with
  | nil => exact List.isChain_singleton last
  | cons t rest ih =>
      unfold keep
      split
      · exact ih last
      · next late =>
          rw [List.isChain_cons_cons]
          exact ⟨Nat.le_of_not_lt late, ih t⟩

private theorem keep_covers (positive : 0 < gap) (sorted : (last :: times).Pairwise (· ≤ ·)) :
    ∀ t ∈ times, ∃ s ∈ last :: keep gap (some last) times, s ≤ t ∧ t < s + gap := by
  induction times generalizing last with
  | nil => exact fun t none => absurd none List.not_mem_nil
  | cons first rest ih =>
      rw [List.pairwise_cons, List.pairwise_cons] at sorted
      obtain ⟨after, later, sorted⟩ := sorted
      have above : last ≤ first := after first List.mem_cons_self
      have fromLast : (last :: rest).Pairwise (· ≤ ·) :=
        List.pairwise_cons.mpr ⟨fun t member => after t (List.mem_cons_of_mem first member), sorted⟩
      have fromFirst : (first :: rest).Pairwise (· ≤ ·) := List.pairwise_cons.mpr ⟨later, sorted⟩
      intro t member
      unfold keep
      split
      · next early =>
          rcases List.mem_cons.mp member with rfl | member
          · exact ⟨last, List.mem_cons_self, above, early⟩
          · exact ih fromLast t member
      · rcases List.mem_cons.mp member with rfl | member
        · exact ⟨t, List.mem_cons_of_mem last List.mem_cons_self, Nat.le_refl t, by omega⟩
        · obtain ⟨s, kept, bounds⟩ := ih fromFirst t member
          exact ⟨s, List.mem_cons_of_mem last kept, bounds⟩

private theorem apart_earlier {s t : Nat} {more : List Nat} (earlier : s ≤ t)
    (apart : (t :: more).IsChain (Apart gap)) : (s :: more).IsChain (Apart gap) := by
  cases more with
  | nil => exact List.isChain_singleton s
  | cons d more =>
      rw [List.isChain_cons_cons] at apart ⊢
      unfold Apart at apart ⊢
      exact ⟨by omega, apart.2⟩

private theorem keep_most (sorted : times.Pairwise (· ≤ ·)) {choice : List Nat}
    (chosen : choice.Sublist times) (apart : (last :: choice).IsChain (Apart gap)) :
    choice.length ≤ (keep gap (some last) times).length := by
  induction times generalizing last choice with
  | nil =>
      obtain rfl := List.sublist_nil.mp chosen
      exact Nat.le_refl 0
  | cons t rest ih =>
      obtain ⟨later, sorted⟩ := List.pairwise_cons.mp sorted
      unfold keep
      split
      · next early =>
          -- The first time is too early for any choice.
          apply ih sorted ?_ apart
          cases chosen with
          | cons _ within => exact within
          | cons_cons _ within =>
              have late := (List.isChain_cons_cons.mp apart).1
              unfold Apart at late
              omega
      · rw [List.length_cons]
        cases chosen with
        | cons_cons _ within =>
            rw [List.length_cons]
            have most := ih sorted within (List.isChain_cons_cons.mp apart).2
            omega
        | cons _ within =>
            -- A choice that begins later can begin with the first time instead.
            cases choice with
            | nil => exact Nat.zero_le _
            | cons c more =>
                have above := later c (within.subset List.mem_cons_self)
                have moved := apart_earlier above (List.isChain_cons_cons.mp apart).2
                have most := ih sorted ((List.sublist_cons_self c more).trans within) moved
                rw [List.length_cons]
                omega

theorem keep_first (positive : 0 < gap) (sorted : times.Pairwise (· ≤ ·)) :
    (keep gap none times).IsChain (Apart gap) ∧
      (∀ t ∈ times, ∃ s ∈ keep gap none times, s ≤ t ∧ t < s + gap) ∧
      ∀ choice : List Nat, choice.Sublist times → choice.IsChain (Apart gap) →
        choice.length ≤ (keep gap none times).length := by
  cases times with
  | nil =>
      refine ⟨List.IsChain.nil, fun t none => absurd none List.not_mem_nil,
        fun choice chosen _ => ?_⟩
      obtain rfl := List.sublist_nil.mp chosen
      exact Nat.le_refl 0
  | cons first rest =>
      obtain ⟨later, tail⟩ := List.pairwise_cons.mp sorted
      refine ⟨keep_apart gap first rest, fun t member => ?_, fun choice chosen apart => ?_⟩
      · rcases List.mem_cons.mp member with rfl | member
        · exact ⟨t, List.mem_cons_self, Nat.le_refl t, by omega⟩
        · exact keep_covers positive sorted t member
      · show choice.length ≤ (keep gap (some first) rest).length + 1
        cases chosen with
        | cons_cons _ within =>
            rw [List.length_cons]
            exact Nat.succ_le_succ (keep_most tail within apart)
        | cons _ within =>
            cases choice with
            | nil => exact Nat.zero_le _
            | cons c more =>
                have above := later c (within.subset List.mem_cons_self)
                have moved := apart_earlier above apart
                rw [List.length_cons]
                exact Nat.succ_le_succ
                  (keep_most tail ((List.sublist_cons_self c more).trans within) moved)

end L3Firewall.Foundation.Cooldown
