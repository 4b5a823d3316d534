/- Conntrack/PortHistory
   source: internal/conntrack/table.go
   digest: The port lists of the table sample the ports recorded since a source last had no flow. -/

import L3Firewall.Conntrack.Companion
import Mathlib.Data.Finset.Card
import Mathlib.Data.List.Nodup

set_option autoImplicit false
set_option relaxedAutoImplicit false

namespace L3Firewall.Conntrack.PortHistory

open Foundation.FiniteMap
open Net.Address (normalizeIP)
open FlowTable Accounting
open Companion (Follows srcPorts_pruned alive_insert)

section Sample

universe u

variable {α : Type u} {cap : Int} {sample history : List α}

/-- A list without duplicates of things that occur in a history: all of them, unless the
list is full. -/
structure Sampled (cap : Int) (sample history : List α) : Prop where
  nodup : sample.Nodup
  bounded : (sample.length : Int) ≤ cap
  subset : sample ⊆ history
  complete : (sample.length : Int) < cap → history ⊆ sample

private theorem Sampled.nil (room : 0 ≤ cap) : Sampled cap ([] : List α) [] :=
  ⟨List.nodup_nil, room, List.Subset.refl _, fun _ => List.Subset.refl _⟩

private theorem Sampled.skip (sampled : Sampled cap sample history) {a : α}
    (known : a ∈ sample ∨ cap ≤ sample.length) : Sampled cap sample (history ++ [a]) := by
  refine ⟨sampled.nodup, sampled.bounded, ?_, fun below => ?_⟩
  · intro b member
    exact List.mem_append_left [a] (sampled.subset member)
  · have listed : a ∈ sample := by
      rcases known with listed | full
      · exact listed
      · omega
    intro b member
    rcases List.mem_append.mp member with before | new
    · exact sampled.complete below before
    · rw [List.mem_singleton.mp new]
      exact listed

private theorem Sampled.add (sampled : Sampled cap sample history) {a : α} (fresh : a ∉ sample)
    (below : (sample.length : Int) < cap) : Sampled cap (sample ++ [a]) (history ++ [a]) := by
  have longer : (sample ++ [a]).length = sample.length + 1 := List.length_append
  have complete := sampled.complete below
  refine ⟨?_, by omega, ?_, fun _ => ?_⟩
  · exact List.nodup_append.mpr ⟨sampled.nodup, List.nodup_singleton a, by
      intro b member c single same
      rw [List.mem_singleton] at single
      exact fresh (single ▸ same ▸ member)⟩
  · exact List.append_subset.mpr
      ⟨fun b member => List.mem_append_left [a] (sampled.subset member),
        List.subset_append_right _ _⟩
  · exact List.append_subset.mpr
      ⟨fun b member => List.mem_append_left [a] (complete member), List.subset_append_right _ _⟩

theorem Sampled.threshold_iff [DecidableEq α] (sampled : Sampled cap sample history) {n : Nat}
    (reachable : (n : Int) ≤ cap) : n ≤ sample.length ↔ n ≤ history.toFinset.card := by
  have size : sample.toFinset.card = sample.length := List.toFinset_card_of_nodup sampled.nodup
  constructor
  · intro reached
    have below : sample.toFinset ⊆ history.toFinset := by
      intro a member
      exact List.mem_toFinset.mpr (sampled.subset (List.mem_toFinset.mp member))
    have cards := Finset.card_le_card below
    omega
  · intro reached
    by_contra short
    have room : (sample.length : Int) < cap := by omega
    have below : history.toFinset ⊆ sample.toFinset := by
      intro a member
      exact List.mem_toFinset.mpr (sampled.complete room (List.mem_toFinset.mp member))
    have cards := Finset.card_le_card below
    omega

end Sample

section Moments

/-- For each source, the destination ports recorded since it last had no live flow. -/
abbrev History := String → List UInt16

def clear (h : History) (t : Table) : History := fun s => if flowsFrom t s = 0 then [] else h s

def record (h : History) (srcIP : String) (dstPort : UInt16) : History :=
  Function.update h srcIP (h srcIP ++ [dstPort])

/-- The history after a table has passed through the given ones. -/
def through (h : History) (ts : List Table) : History := ts.foldl clear h

def creates (t : Table) (key : FlowKey) : Bool :=
  (t.flows.lookup key).isNone && !t.reachedFlowLimitLocked key.srcIP

def removals (t : Table) : List FlowKey → List Table
  | [] => []
  | key :: keys => t.removeLocked key :: removals (t.removeLocked key) keys

/-- The tables that a call passes through while it changes the flow map. A creation in a full
table evicts a flow first. -/
def moments (t : Table) (op : Op) : List Table :=
  match op with
  | .lookupOrCreate o _ srcIP dstIP protocol srcPort dstPort
  | .updateTCPState o _ srcIP dstIP protocol srcPort dstPort _ =>
      if creates t (flowKey srcIP dstIP protocol srcPort dstPort) then
        [t.evictIfFull o, t.apply op]
      else [t.apply op]
  | .delete _ _ _ _ _ => [t.apply op]
  | .expire o now => removals t (t.expiredKeys o now) ++ [t.apply op]

/-- The port lists are samples of the history, and a source without live flows has neither. -/
structure Tracked (t : Table) (h : History) : Prop where
  room : 0 ≤ t.cfg.portScanMaxPorts
  sampled : ∀ s, Sampled t.cfg.portScanMaxPorts ((t.srcPorts.lookup s).getD []) (h s)
  gone : ∀ s, flowsFrom t s = 0 → t.srcPorts.lookup s = none ∧ h s = []

variable {t t' : Table} {h : History}

/-- The second table has the port lists of the first, and no source without flows that had
some. -/
structure Extends (t t' : Table) : Prop where
  cfg : t'.cfg = t.cfg
  ports : t'.srcPorts = t.srcPorts
  alive : ∀ s, flowsFrom t' s = 0 → flowsFrom t s = 0

private theorem Extends.insert {key : FlowKey} {f : Flow} (cfg : t'.cfg = t.cfg)
    (ports : t'.srcPorts = t.srcPorts) (flows : t'.flows = t.flows.insert key f) :
    Extends t t' := by
  exact ⟨cfg, ports, alive_insert flows⟩

private theorem tracked_iff : Tracked t h ↔ 0 ≤ t.cfg.portScanMaxPorts ∧
    Follows Table.srcPorts
      (fun ports history => Sampled t.cfg.portScanMaxPorts (ports.getD []) history) t h := by
  constructor
  · intro tracked
    exact ⟨tracked.room, tracked.sampled, tracked.gone⟩
  · rintro ⟨room, follows⟩
    exact ⟨room, follows.related, follows.gone⟩

private theorem Tracked.extend (tracked : Tracked t h) (extends_ : Extends t t') :
    Tracked t' (clear h t') := by
  obtain ⟨cfg, ports, alive⟩ := extends_
  obtain ⟨room, follows⟩ := tracked_iff.mp tracked
  rw [tracked_iff, cfg]
  exact ⟨room, follows.extend ports alive⟩

private theorem Tracked.remove {key : FlowKey} (tracked : Tracked t h) (counted : Counted t)
    (present : key ∈ t.flows) : Tracked (t.removeLocked key) (clear h (t.removeLocked key)) := by
  obtain ⟨room, follows⟩ := tracked_iff.mp tracked
  rw [tracked_iff, removeLocked_cfg]
  exact ⟨room, follows.remove srcPorts_pruned (.nil room) counted present⟩

private theorem Tracked.evict (tracked : Tracked t h) (acc : Accounted t) (o : FlowOrder) :
    Tracked (t.evictIfFull o) (clear h (t.evictIfFull o)) := by
  obtain ⟨room, follows⟩ := tracked_iff.mp tracked
  rw [tracked_iff, evictIfFull_cfg]
  exact ⟨room, follows.evict srcPorts_pruned (.nil room) acc o⟩

private theorem Tracked.looked {o : FlowOrder} {clock : Clock} {key : FlowKey}
    {phase : Bool → Phase → Phase} {r : Option Flow × Table} (tracked : Tracked t h)
    (acc : Accounted t) (looked : Looked t o clock key phase r) :
    Tracked r.2 (through h (if creates t key then [t.evictIfFull o, r.2] else [r.2])) := by
  unfold creates
  cases looked with
  | hit found updated =>
      rw [found]
      exact tracked.extend (.insert rfl rfl rfl)
  | refused absent limited =>
      rw [absent, limited]
      exact tracked.extend ⟨rfl, rfl, fun _ none_left => none_left⟩
  | created absent below made =>
      rw [absent, below]
      exact (tracked.evict acc o).extend (.insert rfl rfl rfl)

private theorem Tracked.removals (keys : List FlowKey) (distinct : keys.Nodup)
    (tracked : Tracked t h)
    (acc : Accounted t) (present : ∀ k ∈ keys, k ∈ t.flows) :
    Tracked (keys.foldl Table.removeLocked t) (through h (PortHistory.removals t keys)) := by
  induction keys generalizing t h with
  | nil => exact tracked
  | cons k keys ih =>
      obtain ⟨unique, distinct⟩ := List.nodup_cons.mp distinct
      have here := present k List.mem_cons_self
      refine ih distinct (tracked.remove acc.counted here) (removeLocked_accounted acc here) ?_
      intro j member
      rw [removeLocked_flows, AList.mem_erase]
      exact ⟨fun same => unique (same ▸ member), present j (List.mem_cons_of_mem k member)⟩

theorem apply_tracked (tracked : Tracked t h) (acc : Accounted t) (op : Op) :
    Tracked (t.apply op) (through h (moments t op)) := by
  cases op with
  | lookupOrCreate o clock srcIP dstIP protocol srcPort dstPort =>
      exact tracked.looked acc
        (lookupOrCreate_looked t o clock srcIP dstIP protocol srcPort dstPort)
  | updateTCPState o clock srcIP dstIP protocol srcPort dstPort g =>
      exact tracked.looked acc
        (updateTCPState_looked t o clock srcIP dstIP protocol srcPort dstPort g)
  | delete srcIP dstIP protocol srcPort dstPort =>
      change Tracked (t.delete srcIP dstIP protocol srcPort dstPort)
        (clear h (t.delete srcIP dstIP protocol srcPort dstPort))
      unfold Table.delete
      dsimp only
      split
      · next present => exact tracked.remove acc.counted present
      · exact tracked.extend ⟨rfl, rfl, fun _ none_left => none_left⟩
  | expire o now =>
      have removed := tracked.removals (t.expiredKeys o now) (expiredKeys_nodup t o now) acc
        (expiredKeys_mem t o now)
      have finished : Extends ((t.expiredKeys o now).foldl Table.removeLocked t)
          (t.apply (.expire o now)) := ⟨rfl, rfl, fun _ none_left => none_left⟩
      unfold moments through
      rw [List.foldl_append]
      exact removed.extend finished

theorem recordDestPort_tracked (tracked : Tracked t h) (srcIP : String) (dstPort : UInt16)
    (live : 0 < flowsFrom t (normalizeIP srcIP)) :
    Tracked (t.recordDestPort srcIP dstPort) (record h (normalizeIP srcIP) dstPort) := by
  have here := tracked.sampled (normalizeIP srcIP)
  have apart (s : String) (other : s ≠ normalizeIP srcIP) :
      record h (normalizeIP srcIP) dstPort s = h s := Function.update_of_ne other _ _
  have own : record h (normalizeIP srcIP) dstPort (normalizeIP srcIP) =
      h (normalizeIP srcIP) ++ [dstPort] := Function.update_self _ _ _
  -- the list stays as it is when the port is known or the list is full
  have skipped (known : dstPort ∈ (t.srcPorts.lookup (normalizeIP srcIP)).getD [] ∨
      t.cfg.portScanMaxPorts ≤ ((t.srcPorts.lookup (normalizeIP srcIP)).getD []).length) :
      Tracked t (record h (normalizeIP srcIP) dstPort) := by
    refine ⟨tracked.room, fun s => ?_, fun s none_left => ?_⟩
    · by_cases same : s = normalizeIP srcIP
      · rw [same, own]
        exact here.skip known
      · rw [apart s same]
        exact tracked.sampled s
    · have other : s ≠ normalizeIP srcIP := by
        rintro rfl
        omega
      rw [apart s other]
      exact tracked.gone s none_left
  unfold Table.recordDestPort
  dsimp only
  split
  · next known => exact skipped (.inl known)
  · next fresh =>
    split
    · next full => exact skipped (.inr full)
    · next below =>
      refine ⟨tracked.room, fun s => ?_, fun s none_left => ?_⟩
      · dsimp only
        rw [lookup_insert_eq]
        by_cases same : s = normalizeIP srcIP
        · rw [if_pos same, same, own]
          exact here.add fresh (by omega)
        · rw [if_neg same, apart s same]
          exact tracked.sampled s
      · have before : flowsFrom t s = 0 := none_left
        have other : s ≠ normalizeIP srcIP := by
          rintro rfl
          omega
        dsimp only
        rw [lookup_insert_eq, if_neg other, apart s other]
        exact tracked.gone s before

theorem newTable_tracked (cfg : Config) : Tracked (newTable cfg) fun _ => [] := by
  have room : 0 ≤ (newTable cfg).cfg.portScanMaxPorts := by
    unfold newTable Config.effective
    dsimp only
    split <;> omega
  exact ⟨room, fun s => .nil room, fun s _ => ⟨rfl, rfl⟩⟩

end Moments

end L3Firewall.Conntrack.PortHistory
