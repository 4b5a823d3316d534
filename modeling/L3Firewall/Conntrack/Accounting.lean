/- Conntrack/Accounting
   source: internal/conntrack/table.go
   digest: The companion maps agree with the flow map in every reachable table. -/

import L3Firewall.Conntrack.FlowTable
import L3Firewall.Net.RoundTrip

set_option autoImplicit false
set_option relaxedAutoImplicit false

namespace L3Firewall.Conntrack.Accounting

open Foundation.FiniteMap
open Net.Address (normalizeIP)
open Net.RoundTrip (normalizeIP_idem)
open FlowTable

/-- Number of stored flows whose key has the given source. -/
def flowsFrom (t : Table) (s : String) : Nat := countKeys (fun k => decide (k.srcIP = s)) t.flows

/-- The companion maps restate the flow counts of every source. -/
structure Counted (t : Table) : Prop where
  counts : ∀ s, t.srcFlowCount.lookup s =
    if flowsFrom t s = 0 then none else some (flowsFrom t s : Int)
  rates : ∀ s, s ∈ t.newConns ↔ 0 < flowsFrom t s

/-- Every flow sits under the key of its own fields, which are normalised. -/
def Keyed (t : Table) : Prop :=
  ∀ k f, t.flows.lookup k = some f →
    k = f.key ∧ normalizeIP f.srcIP = f.srcIP ∧ normalizeIP f.dstIP = f.dstIP

/-- No source holds more flows than the configured limit. -/
def Limited (t : Table) : Prop :=
  0 < t.cfg.maxFlowsPerSrcIP → ∀ s, (flowsFrom t s : Int) ≤ t.cfg.maxFlowsPerSrcIP

structure Accounted (t : Table) : Prop where
  capacity : 0 < t.cfg.maxEntries
  bounded : (len t.flows : Int) ≤ t.cfg.maxEntries
  keyed : Keyed t
  counted : Counted t
  limited : Limited t

theorem getD_count {t : Table} (counted : Counted t) (s : String) :
    (t.srcFlowCount.lookup s).getD 0 = flowsFrom t s := by
  rw [counted.counts s]
  split
  · next zero => rw [zero]; rfl
  · rfl

section Remove

variable {t : Table} {key : FlowKey}

private theorem flowsFrom_erase (present : key ∈ t.flows) (s : String) :
    countKeys (fun k => decide (k.srcIP = s)) (t.flows.erase key) =
      flowsFrom t s - if key.srcIP = s then 1 else 0 := by
  rw [countKeys_erase _ present, flowsFrom]
  simp only [decide_eq_true_eq]

theorem flowsFrom_pos (present : key ∈ t.flows) : 0 < flowsFrom t key.srcIP :=
  countKeys_pos present (by simp)

theorem removeLocked_flows (t : Table) (key : FlowKey) :
    (t.removeLocked key).flows = t.flows.erase key := by
  rw [t.removeLocked_eq]

theorem removeLocked_cfg (t : Table) (key : FlowKey) : (t.removeLocked key).cfg = t.cfg := by
  rw [t.removeLocked_eq]

theorem flowsFrom_removeLocked (present : key ∈ t.flows) (s : String) :
    flowsFrom (t.removeLocked key) s = flowsFrom t s - if key.srcIP = s then 1 else 0 := by
  rw [flowsFrom, removeLocked_flows, flowsFrom_erase present]

private theorem removeLocked_counted (counted : Counted t) (present : key ∈ t.flows) :
    Counted (t.removeLocked key) := by
  have pos := flowsFrom_pos present
  have value := getD_count counted key.srcIP
  have last : (flowsFrom t key.srcIP : Int) - 1 ≤ 0 ↔ flowsFrom t key.srcIP = 1 := by omega
  refine ⟨fun s => ?_, fun s => ?_⟩
  · rw [flowsFrom_removeLocked present s, t.removeLocked_eq]
    simp only [value, last]
    by_cases same : s = key.srcIP
    · subst same
      split
      · next one => simp [one]
      · next more =>
        rw [lookup_insert_eq, if_pos rfl, if_pos rfl, if_neg (by omega)]
        congr 1
        omega
    · rw [if_neg (Ne.symm same), Nat.sub_zero, ← counted.counts s]
      split
      · rw [lookup_erase_eq, if_neg same]
      · rw [lookup_insert_eq, if_neg same]
  · rw [flowsFrom_removeLocked present s, t.removeLocked_eq]
    simp only [value, last]
    by_cases same : s = key.srcIP
    · subst same
      rw [if_pos rfl]
      split
      · next one => simp [one]
      · rw [counted.rates]
        omega
    · rw [if_neg (Ne.symm same), Nat.sub_zero, ← counted.rates s]
      split
      · simp [AList.mem_erase, same]
      · rfl

private theorem removeLocked_keyed (keyed : Keyed t) : Keyed (t.removeLocked key) := by
  intro k f found
  rw [removeLocked_flows, lookup_erase_eq] at found
  split at found
  · exact absurd found (by simp)
  · exact keyed k f found

private theorem removeLocked_limited (limited : Limited t) (present : key ∈ t.flows) :
    Limited (t.removeLocked key) := by
  intro positive s
  rw [removeLocked_cfg] at positive ⊢
  have before := limited positive s
  rw [flowsFrom_removeLocked present s]
  omega

theorem removeLocked_accounted (acc : Accounted t) (present : key ∈ t.flows) :
    Accounted (t.removeLocked key) where
  capacity := by rw [removeLocked_cfg]; exact acc.capacity
  bounded := by
    have before := acc.bounded
    rw [removeLocked_cfg, removeLocked_flows, len_erase present]
    omega
  keyed := removeLocked_keyed acc.keyed
  counted := removeLocked_counted acc.counted present
  limited := removeLocked_limited acc.limited present

end Remove

private theorem evictScan_mem (entries : List ((_ : FlowKey) × Flow))
    (best : Option (FlowKey × Time)) (k : FlowKey) (seen : Time)
    (found : evictScan entries best = some (k, seen)) :
    k ∈ entries.map Sigma.fst ∨ best = some (k, seen) := by
  induction entries generalizing best with
  | nil => exact .inr found
  | cons e rest ih =>
      obtain ⟨key, f⟩ := e
      cases best with
      | none =>
          rcases ih _ found with later | here
          · exact .inl (List.mem_cons_of_mem _ later)
          · obtain ⟨rfl, -⟩ := Prod.mk.inj (Option.some.inj here)
            exact .inl List.mem_cons_self
      | some old =>
          obtain ⟨oldKey, oldTime⟩ := old
          unfold evictScan at found
          split at found
          · rcases ih _ found with later | here
            · exact .inl (List.mem_cons_of_mem _ later)
            · obtain ⟨rfl, -⟩ := Prod.mk.inj (Option.some.inj here)
              exact .inl List.mem_cons_self
          · rcases ih _ found with later | here
            · exact .inl (List.mem_cons_of_mem _ later)
            · exact .inr here

private theorem evictScan_isSome (entries : List ((_ : FlowKey) × Flow))
    (best : Option (FlowKey × Time)) (some_left : entries ≠ [] ∨ best ≠ none) :
    evictScan entries best ≠ none := by
  induction entries generalizing best with
  | nil =>
      rcases some_left with absurd_nil | given
      · exact absurd rfl absurd_nil
      · exact given
  | cons e rest ih =>
      obtain ⟨key, f⟩ := e
      cases best with
      | none => exact ih _ (.inr (by simp))
      | some old =>
          unfold evictScan
          split <;> exact ih _ (.inr (by simp))

theorem evictOneLocked_spec (t : Table) (o : FlowOrder) (nonempty : 0 < len t.flows) :
    ∃ key ∈ t.flows, t.evictOneLocked o = t.removeLocked key := by
  have sampled : (range o t.flows).take evictionSampleSize ≠ [] := by
    intro empty
    have size := congrArg List.length empty
    rw [List.length_take, range_length, List.length_nil] at size
    unfold evictionSampleSize at size
    omega
  unfold Table.evictOneLocked
  split
  · next none_found => exact absurd none_found (evictScan_isSome _ none (.inl sampled))
  · next key seen found =>
    refine ⟨key, ?_, rfl⟩
    rcases evictScan_mem _ none key seen found with member | impossible
    · obtain ⟨⟨k, f⟩, inside, rfl⟩ := List.mem_map.mp member
      exact mem_of_lookup (mem_range_iff.mp (List.mem_of_mem_take inside))
    · exact absurd impossible (by simp)

theorem evictIfFull_cases {t : Table} (acc : Accounted t) (o : FlowOrder) :
    (t.cfg.maxEntries ≤ len t.flows ∧ ∃ key ∈ t.flows, t.evictIfFull o =
      { t.removeLocked key with
        stats := { (t.removeLocked key).stats with
          evicted := (t.removeLocked key).stats.evicted + 1 } }) ∨
    (len t.flows : Int) < t.cfg.maxEntries ∧ t.evictIfFull o = t := by
  have capacity := acc.capacity
  unfold Table.evictIfFull
  split
  · next full =>
    obtain ⟨key, present, evicted⟩ := evictOneLocked_spec t o (by omega)
    rw [evicted]
    exact .inl ⟨full, key, present, rfl⟩
  · next room => exact .inr ⟨Int.not_le.mp room, rfl⟩

theorem evictIfFull_spec {t : Table} (acc : Accounted t) (o : FlowOrder) :
    Accounted (t.evictIfFull o) ∧ (t.evictIfFull o).cfg = t.cfg ∧
      (len (t.evictIfFull o).flows : Int) < t.cfg.maxEntries ∧
      (∀ k, k ∉ t.flows → k ∉ (t.evictIfFull o).flows) ∧
      ∀ s, flowsFrom (t.evictIfFull o) s ≤ flowsFrom t s := by
  have capacity := acc.capacity
  have bounded := acc.bounded
  rcases evictIfFull_cases acc o with ⟨full, key, present, evicted⟩ | ⟨room, same⟩
  · have removed := removeLocked_accounted acc present
    rw [evicted]
    refine ⟨⟨removed.capacity, removed.bounded, removed.keyed,
      ⟨removed.counted.counts, removed.counted.rates⟩, removed.limited⟩,
      removeLocked_cfg t key, ?_, ?_, ?_⟩
    · have shorter := len_erase present
      have size : 0 < len t.flows := by omega
      dsimp only
      rw [removeLocked_flows]
      omega
    · intro k absent
      dsimp only
      rw [removeLocked_flows, AList.mem_erase]
      exact fun member => absent member.2
    · intro s
      have lowered := flowsFrom_removeLocked present s
      change flowsFrom (t.removeLocked key) s ≤ flowsFrom t s
      omega
  · rw [same]
    exact ⟨acc, rfl, room, fun k absent => absent, fun s => le_rfl⟩

section Create

variable {t : Table} {key : FlowKey}

private theorem insert_counted (counted : Counted t) (fresh : key ∉ t.flows) (f : Flow)
    (stats : Stats) (now : Time) :
    Counted ((({ t with flows := t.flows.insert key f, stats := stats } : Table).incrFlowCountLocked
      key.srcIP).recordNewConn key.srcIP now) := by
  have added (s : String) : countKeys (fun k => decide (k.srcIP = s)) (t.flows.insert key f) =
      flowsFrom t s + if key.srcIP = s then 1 else 0 := by
    rw [countKeys_insert_new _ fresh, flowsFrom]
    simp only [decide_eq_true_eq]
  refine ⟨fun s => ?_, fun s => ?_⟩
  · change (t.srcFlowCount.insert key.srcIP _).lookup s =
      if countKeys _ (t.flows.insert key f) = 0 then none
      else some (countKeys _ (t.flows.insert key f) : Int)
    rw [added s, lookup_insert_eq, getD_count counted]
    by_cases same : s = key.srcIP
    · subst same
      rw [if_pos rfl, if_pos rfl, if_neg (by omega)]
      rfl
    · rw [if_neg same, if_neg (Ne.symm same), Nat.add_zero]
      exact counted.counts s
  · change s ∈ t.newConns.insert key.srcIP _ ↔
      0 < countKeys _ (t.flows.insert key f)
    rw [added s, AList.mem_insert, counted.rates s]
    by_cases same : s = key.srcIP
    · subst same
      simp
    · simp [same, Ne.symm same]

private theorem insert_keyed (keyed : Keyed t) {f : Flow} (own : f.key = key)
    (src : normalizeIP f.srcIP = f.srcIP) (dst : normalizeIP f.dstIP = f.dstIP) :
    ∀ k g, (t.flows.insert key f).lookup k = some g →
      k = g.key ∧ normalizeIP g.srcIP = g.srcIP ∧ normalizeIP g.dstIP = g.dstIP := by
  intro k g found
  rw [lookup_insert_eq] at found
  split at found
  · next same =>
    obtain rfl := Option.some.inj found
    exact ⟨same.trans own.symm, src, dst⟩
  · exact keyed k g found

private theorem createLocked_accounted (acc : Accounted t) (fresh : key ∉ t.flows)
    (allowed : t.reachedFlowLimitLocked key.srcIP = false) (o : FlowOrder) (clock : Clock)
    {f : Flow} (own : f.key = key) (src : normalizeIP f.srcIP = f.srcIP)
    (dst : normalizeIP f.dstIP = f.dstIP) : Accounted (t.createLocked o clock key f) := by
  obtain ⟨room, same_cfg, free, absent, lower⟩ := evictIfFull_spec acc o
  have absent := absent key fresh
  refine ⟨room.capacity, ?_, insert_keyed room.keyed own src dst,
    insert_counted room.counted absent f _ _, ?_⟩
  · change (len ((t.evictIfFull o).flows.insert key f) : Int) ≤ (t.evictIfFull o).cfg.maxEntries
    rw [len_insert_new absent, same_cfg]
    omega
  · intro positive s
    change (countKeys _ ((t.evictIfFull o).flows.insert key f) : Int) ≤
      (t.evictIfFull o).cfg.maxFlowsPerSrcIP
    change 0 < (t.evictIfFull o).cfg.maxFlowsPerSrcIP at positive
    rw [same_cfg] at positive ⊢
    rw [countKeys_insert_new _ absent]
    have before := lower s
    have limit := acc.limited positive s
    unfold flowsFrom at before limit
    by_cases same : key.srcIP = s
    · have below : (flowsFrom t key.srcIP : Int) < t.cfg.maxFlowsPerSrcIP := by
        rw [Table.reachedFlowLimitLocked, decide_eq_false_iff_not,
          getD_count acc.counted] at allowed
        omega
      rw [same] at below
      unfold flowsFrom at below
      simp only [same, decide_true, if_true]
      omega
    · simp only [same, decide_false, Bool.false_eq_true, if_false]
      omega

private theorem storeFlow_accounted (acc : Accounted t) (present : key ∈ t.flows) {f : Flow}
    (own : f.key = key) (src : normalizeIP f.srcIP = f.srcIP)
    (dst : normalizeIP f.dstIP = f.dstIP) : Accounted (t.storeFlow key f) := by
  have counts (s : String) : flowsFrom (t.storeFlow key f) s = flowsFrom t s :=
    countKeys_insert_old _ present f
  refine ⟨acc.capacity, ?_, insert_keyed acc.keyed own src dst, ⟨fun s => ?_, fun s => ?_⟩,
    fun positive s => ?_⟩
  · change (len (t.flows.insert key f) : Int) ≤ t.cfg.maxEntries
    rw [len_insert_old present]
    exact acc.bounded
  · rw [counts s]
    exact acc.counted.counts s
  · rw [counts s]
    exact acc.counted.rates s
  · rw [counts s]
    exact acc.limited positive s

private theorem withStats_accounted (acc : Accounted t) (stats : Stats) :
    Accounted { t with stats := stats } :=
  ⟨acc.capacity, acc.bounded, acc.keyed, ⟨acc.counted.counts, acc.counted.rates⟩, acc.limited⟩

end Create

private theorem looked_accounted {t : Table} {o : FlowOrder} {clock : Clock}
    {srcIP dstIP protocol : String} {srcPort dstPort : UInt16} {phase : Bool → Phase → Phase}
    {r : Option Flow × Table} (acc : Accounted t)
    (looked : Looked t o clock (flowKey srcIP dstIP protocol srcPort dstPort) phase r) :
    Accounted r.2 := by
  cases looked with
  | @hit f f' found updated =>
      obtain ⟨own, src, dst⟩ := acc.keyed _ f found
      have stored : Accounted (t.storeFlow (flowKey srcIP dstIP protocol srcPort dstPort) f') := by
        subst updated
        exact storeFlow_accounted acc (mem_of_lookup found) own.symm src dst
      exact withStats_accounted stored _
  | refused absent limited => exact withStats_accounted acc _
  | created absent below made =>
      subst made
      exact createLocked_accounted acc (AList.lookup_eq_none.mp absent) below o clock rfl
        (normalizeIP_idem srcIP) (normalizeIP_idem dstIP)

theorem delete_accounted {t : Table} (acc : Accounted t) (srcIP dstIP protocol : String)
    (srcPort dstPort : UInt16) : Accounted (t.delete srcIP dstIP protocol srcPort dstPort) := by
  unfold Table.delete
  dsimp only
  split
  · next present => exact removeLocked_accounted acc present
  · exact acc

private theorem foldl_removeLocked_accounted (keys : List FlowKey) (distinct : keys.Nodup)
    {t : Table} (acc : Accounted t) (present : ∀ k ∈ keys, k ∈ t.flows) :
    Accounted (keys.foldl Table.removeLocked t) := by
  induction keys generalizing t with
  | nil => exact acc
  | cons k keys ih =>
      obtain ⟨unique, distinct⟩ := List.nodup_cons.mp distinct
      refine ih distinct (removeLocked_accounted acc (present k List.mem_cons_self)) ?_
      intro j member
      rw [removeLocked_flows, AList.mem_erase]
      exact ⟨fun same => unique (same ▸ member), present j (List.mem_cons_of_mem k member)⟩

theorem expiredKeys_nodup (t : Table) (o : FlowOrder) (now : Time) :
    (t.expiredKeys o now).Nodup :=
  (List.filter_sublist.map Sigma.fst).nodup (range_keys_nodup o t.flows)

theorem expiredKeys_mem (t : Table) (o : FlowOrder) (now : Time) :
    ∀ k ∈ t.expiredKeys o now, k ∈ t.flows := by
  intro k member
  obtain ⟨⟨j, f⟩, inside, rfl⟩ := List.mem_map.mp member
  exact mem_of_lookup (mem_range_iff.mp (List.mem_filter.mp inside).1)

theorem expire_accounted {t : Table} (acc : Accounted t) (o : FlowOrder) (now : Time) :
    Accounted (t.expire o now) :=
  withStats_accounted (foldl_removeLocked_accounted _ (expiredKeys_nodup t o now) acc
    (expiredKeys_mem t o now)) _

theorem apply_accounted {t : Table} (acc : Accounted t) (op : Op) : Accounted (t.apply op) := by
  cases op with
  | lookupOrCreate o clock srcIP dstIP protocol srcPort dstPort =>
      exact looked_accounted acc
        (lookupOrCreate_looked t o clock srcIP dstIP protocol srcPort dstPort)
  | updateTCPState o clock srcIP dstIP protocol srcPort dstPort g =>
      exact looked_accounted acc
        (updateTCPState_looked t o clock srcIP dstIP protocol srcPort dstPort g)
  | delete srcIP dstIP protocol srcPort dstPort =>
      exact delete_accounted acc srcIP dstIP protocol srcPort dstPort
  | expire o now => exact expire_accounted acc o now

theorem recordDestPort_accounted {t : Table} (acc : Accounted t) (srcIP : String)
    (dstPort : UInt16) : Accounted (t.recordDestPort srcIP dstPort) := by
  obtain ⟨ports, same⟩ := recordDestPort_frame t srcIP dstPort
  rw [same]
  exact ⟨acc.capacity, acc.bounded, acc.keyed, ⟨acc.counted.counts, acc.counted.rates⟩,
    acc.limited⟩

theorem newTable_accounted (cfg : Config) : Accounted (newTable cfg) := by
  have positive : 0 < cfg.effective.maxEntries := by
    unfold Config.effective
    dsimp only
    split <;> omega
  refine ⟨positive, ?_, ?_, ⟨fun s => rfl, fun s => ?_⟩, fun limit s => ?_⟩
  · exact positive.le
  · intro k f found
    exact absurd found (by simp [newTable])
  · exact ⟨fun present => absurd present (AList.notMem_empty s), fun live => absurd live nofun⟩
  · exact limit.le

private theorem run_accounted {t : Table} (acc : Accounted t) (ops : List Op) :
    Accounted (t.run ops) := by
  induction ops generalizing t with
  | nil => exact acc
  | cons op ops ih => exact ih (apply_accounted acc op)

private theorem foldl_removeLocked_cfg (keys : List FlowKey) (t : Table) :
    (keys.foldl Table.removeLocked t).cfg = t.cfg := by
  induction keys generalizing t with
  | nil => rfl
  | cons k keys ih => rw [List.foldl_cons, ih, removeLocked_cfg]

theorem evictIfFull_cfg (t : Table) (o : FlowOrder) : (t.evictIfFull o).cfg = t.cfg := by
  unfold Table.evictIfFull Table.evictOneLocked
  split
  · dsimp only
    split
    · rfl
    · exact removeLocked_cfg t _
  · rfl

theorem looked_cfg {t : Table} {o : FlowOrder} {clock : Clock} {key : FlowKey}
    {phase : Bool → Phase → Phase} {r : Option Flow × Table}
    (looked : Looked t o clock key phase r) : r.2.cfg = t.cfg := by
  cases looked with
  | hit found updated => rfl
  | refused absent limited => rfl
  | created absent below made => exact evictIfFull_cfg t o

theorem apply_cfg (t : Table) (op : Op) : (t.apply op).cfg = t.cfg := by
  cases op with
  | lookupOrCreate o clock srcIP dstIP protocol srcPort dstPort =>
      exact looked_cfg (lookupOrCreate_looked t o clock srcIP dstIP protocol srcPort dstPort)
  | updateTCPState o clock srcIP dstIP protocol srcPort dstPort g =>
      exact looked_cfg (updateTCPState_looked t o clock srcIP dstIP protocol srcPort dstPort g)
  | delete srcIP dstIP protocol srcPort dstPort =>
      unfold Table.apply Table.delete
      dsimp only
      split
      · exact removeLocked_cfg t _
      · rfl
  | expire o now => exact foldl_removeLocked_cfg _ t

private theorem run_cfg (t : Table) (ops : List Op) : (t.run ops).cfg = t.cfg := by
  induction ops generalizing t with
  | nil => rfl
  | cons op ops ih => exact (ih (t.apply op)).trans (apply_cfg t op)

/-- Accounting in every table reached from `newTable`, for every configuration, clock
and iteration order: the flow map stays within its capacity, every flow sits under the
key of its own normalised fields, and the per-source maps agree with it. -/
theorem reachable_table_accounted (cfg : Config) (ops : List Op) :
    let t := (newTable cfg).run ops
    (len t.flows : Int) ≤ cfg.effective.maxEntries ∧
    (∀ k f, t.flows.lookup k = some f →
      k = flowKey f.srcIP f.dstIP f.protocol f.srcPort f.dstPort) ∧
    (∀ s, (t.srcFlowCount.lookup s).getD 0 = (flowsFrom t s : Int) ∧
      (t.srcFlowCount.lookup s = none ↔ flowsFrom t s = 0)) ∧
    (∀ s, s ∈ t.newConns ↔ 0 < flowsFrom t s) ∧
    (0 < cfg.maxFlowsPerSrcIP → ∀ s, (flowsFrom t s : Int) ≤ cfg.maxFlowsPerSrcIP) := by
  have acc := run_accounted (newTable_accounted cfg) ops
  have same : ((newTable cfg).run ops).cfg = cfg.effective := run_cfg (newTable cfg) ops
  refine ⟨?_, ?_, ?_, acc.counted.rates, ?_⟩
  · rw [← same]
    exact acc.bounded
  · intro k f found
    obtain ⟨own, src, dst⟩ := acc.keyed k f found
    rw [flowKey, src, dst]
    exact own
  · intro s
    refine ⟨getD_count acc.counted s, ?_⟩
    rw [acc.counted.counts s]
    split
    · next zero => simp [zero]
    · next some_left => simp [some_left]
  · have limited := acc.limited
    unfold Limited at limited
    rw [same] at limited
    exact limited

end L3Firewall.Conntrack.Accounting
