/- Foundation/Ranking
   digest: The first elements of a list in order, told by how many elements are above them. -/

import Mathlib.Data.List.DropRight
import Mathlib.Data.List.Sort

set_option autoImplicit false
set_option relaxedAutoImplicit false

namespace L3Firewall.Foundation.Ranking

private theorem mem_take_sorted {α : Type} [LinearOrder α] [DecidableLT α] {l : List α}
    (sorted : l.Pairwise (· < ·)) (count : Nat) (x : α) :
    x ∈ l.take count ↔ x ∈ l ∧ l.countP (fun y => decide (y < x)) < count := by
  induction l generalizing count with
  | nil => simp
  | cons y l ih =>
      obtain ⟨below, rest⟩ := List.pairwise_cons.mp sorted
      cases count with
      | zero => simp
      | succ count =>
          rw [List.take_succ_cons, List.mem_cons, List.mem_cons, ih rest]
          by_cases first : x = y
          · subst first
            have none_below : (x :: l).countP (fun z => decide (z < x)) = 0 := by
              rw [List.countP_eq_zero]
              intro z member
              rcases List.mem_cons.mp member with rfl | later
              · simp
              · simpa using le_of_lt (below z later)
            rw [none_below]
            simp
          · constructor
            · rintro (same | ⟨member, few⟩)
              · exact absurd same first
              · refine ⟨.inr member, ?_⟩
                rw [List.countP_cons_of_pos (by simpa using below x member)]
                omega
            · rintro ⟨same | member, few⟩
              · exact absurd same first
              · rw [List.countP_cons_of_pos (by simpa using below x member)] at few
                exact .inr ⟨member, by omega⟩

/-- Of the elements that pass a test all but some are taken, lowest first: an element is taken
if and only if enough others are above it or fail the test. -/
theorem mem_take_passing {α : Type} [LinearOrder α] {l : List α} (distinct : l.Nodup)
    (passes : α → Bool) (keep : Nat) (x : α) :
    x ∈ ((l.insertionSort (· ≤ ·)).filter passes).take (l.length - keep) ↔
      passes x = true ∧ x ∈ l ∧ keep < l.countP (fun y => decide (passes y = false ∨ x ≤ y)) := by
  have perm := List.perm_insertionSort (· ≤ ·) l
  have sorted : ((l.insertionSort (· ≤ ·)).filter passes).Pairwise (· < ·) := by
    have ordered := List.pairwise_insertionSort (· ≤ ·) l
    have apart : (l.insertionSort (· ≤ ·)).Nodup := perm.nodup_iff.mpr distinct
    have strict := ordered.imp₂ (fun a b le ne => lt_of_le_of_ne le ne) apart
    exact strict.sublist List.filter_sublist
  have below :
      ((l.insertionSort (· ≤ ·)).filter passes).countP (fun y => decide (y < x)) =
      l.countP fun y => decide (¬ decide (passes y = false ∨ x ≤ y) = true) := by
    rw [List.countP_filter, perm.countP_eq]
    apply List.countP_congr
    intro y _
    simp [and_comm]
  have total :=
    List.length_eq_countP_add_countP (fun y => decide (passes y = false ∨ x ≤ y)) (l := l)
  rw [mem_take_sorted sorted, below, List.mem_filter, perm.mem_iff]
  constructor
  · rintro ⟨⟨member, pass⟩, few⟩
    exact ⟨pass, member, by omega⟩
  · rintro ⟨pass, member, many⟩
    exact ⟨⟨member, pass⟩, by omega⟩

theorem mem_without_greatest {α : Type} [LinearOrder α] {l : List α} (distinct : l.Nodup)
    (keep : Nat) (x : α) :
    x ∈ (l.insertionSort (· ≤ ·)).take (l.length - keep) ↔
      x ∈ l ∧ keep < l.countP (fun y => decide (x ≤ y)) := by
  have all := mem_take_passing distinct (fun _ => true) keep x
  rw [List.filter_true] at all
  simpa using all

theorem mem_rtake {α : Type} {l : List α} {count : Nat} {x : α} (member : x ∈ l.rtake count) :
    ∃ front back, l = front ++ x :: back ∧ back.length < count := by
  rw [List.rtake] at member
  obtain ⟨before, back, split⟩ := List.append_of_mem member
  refine ⟨l.take (l.length - count) ++ before, back, ?_, ?_⟩
  · rw [List.append_assoc, ← split, List.take_append_drop]
  · have length := congrArg List.length split
    rw [List.length_drop, List.length_append, List.length_cons] at length
    omega

end L3Firewall.Foundation.Ranking
