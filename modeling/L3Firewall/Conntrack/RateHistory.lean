/- Conntrack/RateHistory
   source: internal/conntrack/table.go
   digest: No source is credited with more new connections than there were calls. -/

import L3Firewall.Conntrack.FlowTable
import Mathlib.Algebra.BigOperators.Fin
import Mathlib.Algebra.Order.BigOperators.Group.Finset
import Mathlib.Algebra.Order.Field.Rat
import Mathlib.Tactic.Positivity

set_option autoImplicit false
set_option relaxedAutoImplicit false

namespace L3Firewall.Conntrack.RateHistory

open Foundation.FiniteMap
open FlowTable

/-- All connections that the buckets of a source hold, inside the window or not. -/
def total (r : NewConnRate) : Nat := ∑ i, r.counts i

private theorem windowSum_le (r : NewConnRate) (now : Time) : r.windowSum now ≤ total r := by
  rw [NewConnRate.windowSum, ← Fin.sum_univ_def]
  refine Finset.sum_le_sum fun i _ => ?_
  split
  · exact le_rfl
  · exact Nat.zero_le _

private theorem record_total (r : NewConnRate) (now : Time) :
    total (r.record now) ≤ total r + 1 := by
  have others := Finset.sum_erase_add Finset.univ r.counts (Finset.mem_univ (slot (unix now)))
  have kept : (if r.secs (slot (unix now)) = unix now then r.counts (slot (unix now)) else 0) ≤
      r.counts (slot (unix now)) := by
    split
    · exact le_rfl
    · exact Nat.zero_le _
  have updated := Finset.sum_update_of_mem (Finset.mem_univ (slot (unix now))) r.counts
    ((if r.secs (slot (unix now)) = unix now then r.counts (slot (unix now)) else 0) + 1)
  change ∑ i, Function.update r.counts (slot (unix now)) _ i ≤ _
  rw [updated, total, ← others, ← Finset.erase_eq]
  omega

def Bounded (k : Nat) (t : Table) : Prop :=
  ∀ src r, t.newConns.lookup src = some r → total r ≤ k

variable {k : Nat} {t : Table}

private theorem Bounded.mono {n : Nat} (bounded : Bounded k t) (more : k ≤ n) : Bounded n t :=
  fun src r found => (bounded src r found).trans more

private theorem removeLocked_bounded (bounded : Bounded k t) (key : FlowKey) :
    Bounded k (t.removeLocked key) := by
  intro src r found
  rw [t.removeLocked_eq] at found
  dsimp only at found
  split at found
  · rw [lookup_erase_eq] at found
    split at found
    · exact absurd found nofun
    · exact bounded src r found
  · exact bounded src r found

private theorem evictIfFull_bounded (bounded : Bounded k t) (o : FlowOrder) :
    Bounded k (t.evictIfFull o) := by
  unfold Table.evictIfFull
  split
  · change Bounded k (t.evictOneLocked o)
    unfold Table.evictOneLocked
    split
    · exact bounded
    · exact removeLocked_bounded bounded _
  · exact bounded

private theorem createLocked_bounded (bounded : Bounded k t) (o : FlowOrder) (clock : Clock)
    (key : FlowKey) (f : Flow) : Bounded (k + 1) (t.createLocked o clock key f) := by
  have room := evictIfFull_bounded bounded o
  intro src r found
  change ((t.evictIfFull o).newConns.insert key.srcIP _).lookup src = some r at found
  rw [lookup_insert_eq] at found
  split at found
  · obtain rfl := Option.some.inj found
    refine (record_total _ _).trans (Nat.add_le_add_right ?_ 1)
    change total (((t.evictIfFull o).newConns.lookup key.srcIP).getD NewConnRate.empty) ≤ k
    cases before : (t.evictIfFull o).newConns.lookup key.srcIP with
    | some r => exact room key.srcIP r before
    | none => exact Nat.zero_le k
  · exact (room src r found).trans (Nat.le_succ k)

theorem looked_bounded {o : FlowOrder} {clock : Clock} {key : FlowKey}
    {phase : Bool → Phase → Phase} {r : Option Flow × Table} (bounded : Bounded k t)
    (looked : Looked t o clock key phase r) : Bounded (k + 1) r.2 := by
  cases looked with
  | hit found updated => exact bounded.mono (Nat.le_succ k)
  | refused absent limited => exact bounded.mono (Nat.le_succ k)
  | created absent below made => exact createLocked_bounded bounded _ _ _ _

theorem recordDestPort_bounded (bounded : Bounded k t) (srcIP : String) (dstPort : UInt16) :
    Bounded k (t.recordDestPort srcIP dstPort) := by
  obtain ⟨ports, same⟩ := recordDestPort_frame t srcIP dstPort
  rw [same]
  exact bounded

theorem newTable_bounded (cfg : Config) : Bounded 0 (newTable cfg) := by
  intro src r found
  rw [show (newTable cfg).newConns.lookup src = none from AList.lookup_empty src] at found
  exact absurd found nofun

theorem newConnectionRate_le (bounded : Bounded k t) (srcIP : String) (now : Time) :
    t.newConnectionRate srcIP now ≤ (k : ℚ) / 10 := by
  unfold Table.newConnectionRate
  split
  · positivity
  · next r found =>
    have sum : r.windowSum now ≤ k := (windowSum_le r now).trans (bounded _ r found)
    have cast : ((r.windowSum now : Nat) : ℚ) ≤ k := by exact_mod_cast sum
    exact div_le_div_of_nonneg_right cast (by norm_num)

end L3Firewall.Conntrack.RateHistory
