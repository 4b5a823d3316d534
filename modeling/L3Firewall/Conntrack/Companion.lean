/- Conntrack/Companion
   source: internal/conntrack/table.go
   digest: What a map beside the flow map records of a source lives as long as its flows. -/

import L3Firewall.Conntrack.Accounting

set_option autoImplicit false
set_option relaxedAutoImplicit false

namespace L3Firewall.Conntrack.Companion

open Foundation.FiniteMap
open FlowTable Accounting

universe u v

variable {β : Type u} {γ : Type v}

def forget (h : String → List γ) (t : Table) : String → List γ :=
  fun s => if flowsFrom t s = 0 then [] else h s

/-- A map from which an entry goes when the flow count of its source falls to zero. -/
structure Pruned (proj : Table → FMap String β) : Prop where
  removed : ∀ t key, proj (t.removeLocked key) =
    if (t.srcFlowCount.lookup key.srcIP).getD 0 - 1 ≤ 0 then (proj t).erase key.srcIP else proj t
  counted : ∀ (t : Table) (stats : Stats), proj { t with stats := stats } = proj t

theorem srcPorts_pruned : Pruned Table.srcPorts := by
  refine ⟨fun t key => ?_, fun _ _ => rfl⟩
  rw [t.removeLocked_eq]

theorem newConns_pruned : Pruned Table.newConns := by
  refine ⟨fun t key => ?_, fun _ _ => rfl⟩
  rw [t.removeLocked_eq]

/-- The entries of a map stand in a relation to the histories of the sources, and a source
without live flows has neither. -/
structure Follows (proj : Table → FMap String β) (rel : Option β → List γ → Prop) (t : Table)
    (h : String → List γ) : Prop where
  related : ∀ s, rel ((proj t).lookup s) (h s)
  gone : ∀ s, flowsFrom t s = 0 → (proj t).lookup s = none ∧ h s = []

variable {proj : Table → FMap String β} {rel : Option β → List γ → Prop} {t t' : Table}
  {h : String → List γ} {key : FlowKey}

theorem Follows.extend (follows : Follows proj rel t h) (same : proj t' = proj t)
    (alive : ∀ s, flowsFrom t' s = 0 → flowsFrom t s = 0) : Follows proj rel t' (forget h t') := by
  have kept (s : String) : forget h t' s = h s := by
    unfold forget
    split
    · next none_left => exact (follows.gone s (alive s none_left)).2.symm
    · rfl
  refine ⟨fun s => ?_, fun s none_left => ?_⟩
  · rw [same, kept s]
    exact follows.related s
  · rw [same, kept s]
    exact follows.gone s (alive s none_left)

private theorem Pruned.lookup (pruned : Pruned proj) (counted : Counted t) (present : key ∈ t.flows)
    (s : String) : (proj (t.removeLocked key)).lookup s =
      if s = key.srcIP ∧ flowsFrom t key.srcIP = 1 then none else (proj t).lookup s := by
  have pos := flowsFrom_pos present
  rw [pruned.removed, getD_count counted]
  by_cases last : flowsFrom t key.srcIP = 1
  · rw [if_pos (by omega), lookup_erase_eq]
    simp only [last, and_true]
  · rw [if_neg (by omega), if_neg (fun both => last both.2)]

private theorem none_left_cases (present : key ∈ t.flows) {s : String}
    (none_left : flowsFrom (t.removeLocked key) s = 0) :
    flowsFrom t s = 0 ∨ s = key.srcIP ∧ flowsFrom t key.srcIP = 1 := by
  have left := flowsFrom_removeLocked present s
  have pos := flowsFrom_pos present
  by_cases same : key.srcIP = s
  · subst same
    rw [if_pos rfl] at left
    exact Or.inr ⟨rfl, by omega⟩
  · rw [if_neg same] at left
    exact Or.inl (by omega)

theorem Follows.remove (follows : Follows proj rel t h) (pruned : Pruned proj)
    (nothing : rel none []) (counted : Counted t) (present : key ∈ t.flows) :
    Follows proj rel (t.removeLocked key) (forget h (t.removeLocked key)) := by
  have entry := pruned.lookup counted present
  have lost {s : String} (none_left : flowsFrom (t.removeLocked key) s = 0) :
      (proj (t.removeLocked key)).lookup s = none := by
    rw [entry s]
    split
    · rfl
    · next others =>
        rcases none_left_cases present none_left with before | last
        · exact (follows.gone s before).1
        · exact absurd last others
  refine ⟨fun s => ?_, fun s none_left => ⟨lost none_left, if_pos none_left⟩⟩
  unfold forget
  split
  · next none_left =>
      rw [lost none_left]
      exact nothing
  · next some_left =>
      have others : ¬ (s = key.srcIP ∧ flowsFrom t key.srcIP = 1) := by
        rintro ⟨rfl, one⟩
        rw [flowsFrom_removeLocked present, one] at some_left
        exact some_left (by simp)
      rw [entry s, if_neg others]
      exact follows.related s

theorem Follows.evict (follows : Follows proj rel t h) (pruned : Pruned proj)
    (nothing : rel none []) (acc : Accounted t) (o : FlowOrder) :
    Follows proj rel (t.evictIfFull o) (forget h (t.evictIfFull o)) := by
  rcases evictIfFull_cases acc o with ⟨-, key, present, evicted⟩ | ⟨-, same⟩
  · have removed := follows.remove pruned nothing acc.counted present
    rw [evicted]
    refine ⟨fun s => ?_, fun s none_left => ?_⟩
    · rw [pruned.counted]
      exact removed.related s
    · rw [pruned.counted]
      exact removed.gone s none_left
  · rw [same]
    exact follows.extend rfl fun _ none_left => none_left

theorem alive_insert {f : Flow} (flows : t'.flows = t.flows.insert key f) (s : String)
    (none_left : flowsFrom t' s = 0) : flowsFrom t s = 0 := by
  unfold flowsFrom at none_left ⊢
  rw [flows] at none_left
  by_cases known : key ∈ t.flows
  · rwa [countKeys_insert_old _ known] at none_left
  · rw [countKeys_insert_new _ known] at none_left
    omega

end L3Firewall.Conntrack.Companion
