/- Conntrack/Conservation
   source: internal/conntrack/table.go
   digest: The counters of a table account for every flow it made and every call it answered. -/

import L3Firewall.Conntrack.TcpState

set_option autoImplicit false
set_option relaxedAutoImplicit false

namespace L3Firewall.Conntrack.Conservation

open Foundation.FiniteMap
open FlowTable
open Accounting
open TcpState (evictIfFull_lookup createLocked_lookup delete_lookup expire_lookup)

section Counts

def answer (t : Table) : Op → Option Flow
  | .lookupOrCreate o clock srcIP dstIP protocol srcPort dstPort =>
      (t.lookupOrCreate o clock srcIP dstIP protocol srcPort dstPort).1
  | .updateTCPState o clock srcIP dstIP protocol srcPort dstPort g =>
      (t.updateTCPState o clock srcIP dstIP protocol srcPort dstPort g).1
  | .delete _ _ _ _ _ => none
  | .expire _ _ => none

def looksUp : Op → Bool
  | .lookupOrCreate _ _ _ _ _ _ _ => true
  | .updateTCPState _ _ _ _ _ _ _ _ => true
  | .delete _ _ _ _ _ => false
  | .expire _ _ => false

/-- A call of Delete that finds the flow it is to remove. -/
def deletions (t : Table) : Op → Nat
  | .delete srcIP dstIP protocol srcPort dstPort =>
      if flowKey srcIP dstIP protocol srcPort dstPort ∈ t.flows then 1 else 0
  | _ => 0

/-- Flows that have to make room for the flow of a key: one, if the call makes a flow and
the table is full. -/
def evictions (t : Table) (key : FlowKey) : Nat :=
  if key ∉ t.flows ∧ t.reachedFlowLimitLocked key.srcIP = false ∧
    t.cfg.maxEntries ≤ len t.flows then 1 else 0

def removals (t : Table) : Op → Nat
  | .lookupOrCreate _ _ srcIP dstIP protocol srcPort dstPort =>
      evictions t (flowKey srcIP dstIP protocol srcPort dstPort)
  | .updateTCPState _ _ srcIP dstIP protocol srcPort dstPort _ =>
      evictions t (flowKey srcIP dstIP protocol srcPort dstPort)
  | .delete srcIP dstIP protocol srcPort dstPort =>
      if flowKey srcIP dstIP protocol srcPort dstPort ∈ t.flows then 1 else 0
  | .expire o now => (t.expiredKeys o now).length

def total (count : Table → Op → Nat) : Table → List Op → Nat
  | _, [] => 0
  | t, op :: ops => count t op + total count (t.apply op) ops

/-- How often the flow of a key has been returned since it was made, after one more call. -/
def returnedNext (k : FlowKey) (t : Table) (op : Op) (n : Nat) : Nat :=
  match answer t op with
  | none => n
  | some f => if f.key = k then if k ∈ t.flows then n + 1 else 1 else n

def returned (k : FlowKey) : Table → List Op → Nat → Nat
  | _, [], n => n
  | t, op :: ops, n => returned k (t.apply op) ops (returnedNext k t op n)

end Counts

section Step

variable {t : Table}

private theorem removeLocked_stats (t : Table) (key : FlowKey) :
    (t.removeLocked key).stats = t.stats := by
  rw [t.removeLocked_eq]

private theorem foldl_removeLocked_stats (keys : List FlowKey) (t : Table) :
    (keys.foldl Table.removeLocked t).stats = t.stats := by
  induction keys generalizing t with
  | nil => rfl
  | cons k keys ih => rw [List.foldl_cons, ih, removeLocked_stats]

private theorem foldl_removeLocked_len (keys : List FlowKey) (distinct : keys.Nodup)
    (present : ∀ k ∈ keys, k ∈ t.flows) :
    len (keys.foldl Table.removeLocked t).flows + keys.length = len t.flows := by
  induction keys generalizing t with
  | nil => rfl
  | cons k keys ih =>
      obtain ⟨unique, distinct⟩ := List.nodup_cons.mp distinct
      have stored : k ∈ t.flows := present k List.mem_cons_self
      have left : ∀ j ∈ keys, j ∈ (t.removeLocked k).flows := by
        intro j member
        rw [removeLocked_flows, AList.mem_erase]
        exact ⟨fun same => unique (same ▸ member), present j (List.mem_cons_of_mem k member)⟩
      have rest := ih distinct left
      have first : len (t.removeLocked k).flows = len t.flows - 1 := by
        rw [removeLocked_flows, len_erase stored]
      have some_left : 0 < len t.flows := List.length_pos_of_mem stored
      rw [List.foldl_cons, List.length_cons]
      omega

private theorem evictIfFull_books (acc : Accounted t) (o : FlowOrder) :
    ∃ n, n = (if t.cfg.maxEntries ≤ len t.flows then 1 else 0) ∧
      len (t.evictIfFull o).flows + n = len t.flows ∧
      (t.evictIfFull o).stats = { t.stats with evicted := t.stats.evicted + n } := by
  have capacity := acc.capacity
  rcases evictIfFull_cases acc o with ⟨full, key, present, evicted⟩ | ⟨room, same⟩
  · have shorter := len_erase present
    rw [if_pos full, evicted]
    refine ⟨1, rfl, ?_, ?_⟩
    · dsimp only
      rw [removeLocked_flows]
      omega
    · dsimp only
      rw [removeLocked_stats]
  · rw [if_neg (Int.not_le.mpr room), same]
    exact ⟨0, rfl, rfl, rfl⟩

private theorem createLocked_books (acc : Accounted t) (o : FlowOrder) (clock : Clock)
    {key : FlowKey}
    (f : Flow) (fresh : key ∉ t.flows) (below : t.reachedFlowLimitLocked key.srcIP = false) :
    (t.createLocked o clock key f).stats =
        { t.stats with
          evicted := t.stats.evicted + evictions t key, created := t.stats.created + 1 } ∧
      len (t.createLocked o clock key f).flows + evictions t key = len t.flows + 1 := by
  obtain ⟨n, count, size, stats⟩ := evictIfFull_books acc o
  have evicted : evictions t key = n := by
    rw [count]
    unfold evictions
    simp only [fresh, below, not_false_eq_true, true_and]
  have vacant : key ∉ (t.evictIfFull o).flows := (evictIfFull_spec acc o).2.2.2.1 key fresh
  have grown : len ((t.evictIfFull o).flows.insert key f) = len (t.evictIfFull o).flows + 1 :=
    len_insert_new vacant f
  constructor
  · change { (t.evictIfFull o).stats with created := (t.evictIfFull o).stats.created + 1 } = _
    rw [stats, evicted]
  · change len ((t.evictIfFull o).flows.insert key f) + _ = _
    omega

/-- The counters of a table: what came in is there or has gone, and every call that looked
a flow up is counted once. -/
structure Booked (t t' : Table) (removed deleted looked : Nat) : Prop where
  flows : t'.stats.created + len t.flows = t.stats.created + len t'.flows + removed
  gone : t'.stats.expired + t'.stats.evicted + deleted =
    t.stats.expired + t.stats.evicted + removed
  calls : t'.stats.hits + t'.stats.created + t'.stats.flowLimitExceeded =
    t.stats.hits + t.stats.created + t.stats.flowLimitExceeded + looked

private theorem looked_booked {o : FlowOrder} {clock : Clock} {key : FlowKey}
    {phase : Bool → Phase → Phase} {r : Option Flow × Table} (acc : Accounted t)
    (looked : Looked t o clock key phase r) : Booked t r.2 (evictions t key) 0 1 := by
  cases looked with
  | @hit f f' found updated =>
      have stored : key ∈ t.flows := mem_of_lookup found
      have kept : evictions t key = 0 := if_neg fun made => made.1 stored
      have size : len (t.flows.insert key f') = len t.flows := len_insert_old stored f'
      refine ⟨?_, ?_, ?_⟩
      · change t.stats.created + len t.flows = t.stats.created + len (t.flows.insert key f') + _
        omega
      · rw [kept]
        rfl
      · change t.stats.hits + 1 + t.stats.created + t.stats.flowLimitExceeded = _
        omega
  | refused absent limited =>
      have kept : evictions t key = 0 :=
        if_neg fun made => absurd (limited.symm.trans made.2.1) (by simp)
      exact ⟨by rw [kept]; rfl, by rw [kept]; rfl, rfl⟩
  | @created f absent below made =>
      obtain ⟨stats, size⟩ :=
        createLocked_books acc o clock f (AList.lookup_eq_none.mp absent) below
      refine ⟨?_, ?_, ?_⟩
      · rw [stats]
        dsimp only
        omega
      · rw [stats]
        dsimp only
        omega
      · rw [stats]
        dsimp only
        omega

theorem apply_booked (acc : Accounted t) (op : Op) :
    Booked t (t.apply op) (removals t op) (deletions t op) (looksUp op).toNat := by
  cases op with
  | lookupOrCreate o clock srcIP dstIP protocol srcPort dstPort =>
      exact looked_booked acc
        (lookupOrCreate_looked t o clock srcIP dstIP protocol srcPort dstPort)
  | updateTCPState o clock srcIP dstIP protocol srcPort dstPort g =>
      exact looked_booked acc
        (updateTCPState_looked t o clock srcIP dstIP protocol srcPort dstPort g)
  | delete srcIP dstIP protocol srcPort dstPort =>
      unfold removals deletions Table.apply Table.delete
      dsimp only
      split
      · next stored =>
        have shorter := len_erase stored
        have some_left : 0 < len t.flows := List.length_pos_of_mem stored
        refine ⟨?_, ?_, ?_⟩
        · rw [removeLocked_stats, removeLocked_flows]
          omega
        · rw [removeLocked_stats]
        · rw [removeLocked_stats]
          rfl
      · exact ⟨rfl, rfl, rfl⟩
  | expire o now =>
      have shorter := foldl_removeLocked_len _ (expiredKeys_nodup t o now)
        (expiredKeys_mem t o now)
      have same := foldl_removeLocked_stats (t.expiredKeys o now) t
      unfold removals deletions Table.apply Table.expire
      dsimp only
      rw [same]
      refine ⟨?_, ?_, rfl⟩
      · dsimp only
        omega
      · dsimp only
        omega

end Step

section Packets

variable {t : Table} {k : FlowKey} {n : Nat}

/-- The flow of a key, if there is one, has counted a number of packets. -/
def Served (t : Table) (k : FlowKey) (n : Nat) : Prop :=
  ∀ f, t.flows.lookup k = some f → f.packets = n

private theorem Served.of_kept {t' : Table} (served : Served t k n)
    (kept : ∀ f, t'.flows.lookup k = some f → t.flows.lookup k = some f) : Served t' k n :=
  fun f found => served f (kept f found)

private theorem looked_served {o : FlowOrder} {clock : Clock} {key : FlowKey}
    {phase : Bool → Phase → Phase} {r : Option Flow × Table} (keyed : Keyed t)
    (served : Served t k n) (looked : Looked t o clock key phase r) :
    Served r.2 k (match r.1 with
      | none => n
      | some f => if f.key = k then if k ∈ t.flows then n + 1 else 1 else n) := by
  intro g found
  cases looked with
  | @hit f f' tracked updated =>
      have own : f'.key = key := by
        rw [updated]
        exact (keyed key f tracked).1.symm
      change (t.flows.insert key f').lookup k = some g at found
      rw [lookup_insert_eq] at found
      dsimp only
      split at found
      · next same =>
        obtain rfl := Option.some.inj found
        subst same
        rw [if_pos own, if_pos (mem_of_lookup tracked), updated]
        exact congrArg (· + 1) (served f tracked)
      · next other =>
        rw [if_neg fun same => other (same.symm.trans own)]
        exact served g found
  | refused absent limited => exact served g found
  | @created f absent below made =>
      have own : f.key = key := by
        rw [made]
        rfl
      rw [createLocked_lookup] at found
      dsimp only
      split at found
      · next same =>
        obtain rfl := Option.some.inj found
        subst same
        rw [if_pos own, if_neg (AList.lookup_eq_none.mp absent), made]
        rfl
      · next other =>
        rw [if_neg fun same => other (same.symm.trans own)]
        exact served g (evictIfFull_lookup found)

private theorem apply_served (keyed : Keyed t) (served : Served t k n) (op : Op) :
    Served (t.apply op) k (returnedNext k t op n) := by
  cases op with
  | lookupOrCreate o clock srcIP dstIP protocol srcPort dstPort =>
      exact looked_served keyed served
        (lookupOrCreate_looked t o clock srcIP dstIP protocol srcPort dstPort)
  | updateTCPState o clock srcIP dstIP protocol srcPort dstPort g =>
      exact looked_served keyed served
        (updateTCPState_looked t o clock srcIP dstIP protocol srcPort dstPort g)
  | delete srcIP dstIP protocol srcPort dstPort =>
      exact served.of_kept fun f found => delete_lookup found
  | expire o now => exact served.of_kept fun f found => expire_lookup found

end Packets

section Runs

variable {t : Table}

private theorem run_booked (acc : Accounted t) (ops : List Op) :
    Booked t (t.run ops) (total removals t ops) (total deletions t ops)
      (ops.countP looksUp) := by
  induction ops generalizing t with
  | nil => exact ⟨rfl, rfl, rfl⟩
  | cons op ops ih =>
      have first := apply_booked acc op
      have rest := ih (apply_accounted acc op)
      have flows := rest.flows
      have gone := rest.gone
      have calls := rest.calls
      unfold total
      change Booked t ((t.apply op).run ops) _ _ _
      refine ⟨?_, ?_, ?_⟩
      · have now := first.flows
        omega
      · have now := first.gone
        omega
      · have now := first.calls
        rw [List.countP_cons]
        cases looked : looksUp op <;> simp only [looked, Bool.toNat_true, Bool.toNat_false] at now
        · simp only [Bool.false_eq_true, if_false]
          omega
        · simp only [if_true]
          omega

private theorem run_served {k : FlowKey} {n : Nat} (acc : Accounted t) (served : Served t k n)
    (ops : List Op) : Served (t.run ops) k (returned k t ops n) := by
  induction ops generalizing t n with
  | nil => exact served
  | cons op ops ih => exact ih (apply_accounted acc op) (apply_served acc.keyed served op)

end Runs

/-- Conservation. After every run on a new table, whatever is evicted: the flows made are those
tracked, those that expired, those evicted and those deleted; every call that looks a flow up
is a hit, made a flow or met the limit of its source; and every tracked flow has counted the
calls that returned it since it was made. -/
theorem statistics_conserved (cfg : Config) (ops : List Op) :
    let t := (newTable cfg).run ops
    t.stats.created =
      len t.flows + t.stats.expired + t.stats.evicted + total deletions (newTable cfg) ops ∧
    t.stats.hits + t.stats.created + t.stats.flowLimitExceeded =
      ops.countP looksUp ∧
    ∀ k f, t.flows.lookup k = some f → f.packets = returned k (newTable cfg) ops 0 := by
  have booked := run_booked (newTable_accounted cfg) ops
  have flows := booked.flows
  have gone := booked.gone
  have calls := booked.calls
  have empty : len (newTable cfg).flows = 0 := rfl
  have unused : (newTable cfg).stats = ⟨0, 0, 0, 0, 0⟩ := rfl
  rw [unused] at flows gone calls
  dsimp only at flows gone calls ⊢
  refine ⟨by omega, by omega, fun k f found => ?_⟩
  have untracked : Served (newTable cfg) k 0 := fun g impossible =>
    absurd impossible (by simp [newTable])
  exact run_served (newTable_accounted cfg) untracked ops f found

end L3Firewall.Conntrack.Conservation
