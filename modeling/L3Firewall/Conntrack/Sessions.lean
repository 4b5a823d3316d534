/- Conntrack/Sessions
   source: internal/conntrack/table.go
   digest: The connection table is a log of sessions: what it holds of a flow is what the packets
   since the flow was made say, over every run of its calls. -/

import L3Firewall.Conntrack.Conservation
import L3Firewall.Conntrack.SourceView
import L3Firewall.Foundation.SessionLog

set_option autoImplicit false
set_option relaxedAutoImplicit false

namespace L3Firewall.Conntrack.Sessions

open Foundation.FiniteMap
open Foundation.SessionLog
open FlowTable
open Accounting
open Conservation (answer)

/-- What a call sees of a packet. LookupOrCreate has no flags. -/
structure Seen where
  clock : Clock
  flags : Option Flags

def phaseNext (protocol : String) (isNew : Bool) (flags : Option Flags) (p : Phase) : Phase :=
  match flags with
  | none => p
  | some g => newFlowOverride isNew protocol g (tcpSwitch g p)

def startPhase : Phase := ⟨.synSent, false⟩

/-- The phase that the packets of a session lead to. -/
def phaseOf (protocol : String) : List Seen → Phase
  | [] => startPhase
  | first :: rest => rest.foldl (fun p seen => phaseNext protocol false seen.flags p)
      (phaseNext protocol true first.flags startPhase)

def flowOf (key : FlowKey) : List Seen → Option Flow
  | [] => none
  | first :: rest => some
      { srcIP := key.srcIP
        dstIP := key.dstIP
        protocol := key.protocol
        srcPort := key.srcPort
        dstPort := key.dstPort
        established := (phaseOf key.protocol (first :: rest)).established
        tcpState := (phaseOf key.protocol (first :: rest)).tcpState
        packets := rest.length + 1
        created := first.clock.created
        lastSeen := (rest.getLastD first).clock.lastSeen }

def rules (cfg : Config) : Rules FlowKey String Seen where
  group := FlowKey.srcIP
  time := fun seen => seen.clock.lastSeen
  capacity := cfg.effective.maxEntries.toNat
  quota := if 0 < cfg.maxFlowsPerSrcIP then some cfg.maxFlowsPerSrcIP.toNat else none
  sample := evictionSampleSize
  timeout := fun key => (newTable cfg).idleTimeoutFor key.protocol

def actOf : Op → Act FlowKey Seen
  | .lookupOrCreate _ clock srcIP dstIP protocol srcPort dstPort =>
      .packet (flowKey srcIP dstIP protocol srcPort dstPort) ⟨clock, none⟩
  | .updateTCPState _ clock srcIP dstIP protocol srcPort dstPort g =>
      .packet (flowKey srcIP dstIP protocol srcPort dstPort) ⟨clock, some g⟩
  | .delete srcIP dstIP protocol srcPort dstPort =>
      .close (flowKey srcIP dstIP protocol srcPort dstPort)
  | .expire _ now => .expire now

def answers : Table → List Op → List (Option Flow)
  | _, [] => []
  | t, op :: ops => answer t op :: answers (t.apply op) ops

def shown (out : Option (FlowKey × List Seen)) : Option Flow := out.bind fun x => flowOf x.1 x.2

section Replay

variable {key : FlowKey} {l : List Seen} {f : Flow}

private theorem flowOf_eq_none : flowOf key l = none ↔ l = [] := by
  cases l with
  | nil => exact ⟨fun _ => rfl, fun _ => rfl⟩
  | cons first rest => constructor <;> intro none <;> cases none

private theorem flowOf_single (key : FlowKey) (seen : Seen) : flowOf key [seen] =
    some ((freshFlow key seen.clock).setPhase
      (phaseNext key.protocol true seen.flags (freshFlow key seen.clock).phase)) :=
  rfl

private theorem flowOf_snoc (held : flowOf key l = some f) (seen : Seen) :
    flowOf key (l ++ [seen]) =
      some ((f.touch seen.clock.lastSeen).setPhase
        (phaseNext key.protocol false seen.flags f.phase)) := by
  cases l with
  | nil => cases held
  | cons first rest =>
      obtain rfl := Option.some.inj held
      simp only [flowOf, phaseOf, List.cons_append, List.foldl_append, List.foldl_cons,
        List.foldl_nil, List.length_append, List.length_singleton, Flow.setPhase, Flow.touch,
        Flow.phase, List.getLastD_concat]

private theorem flowOf_lastSeen (cfg : Config) (held : flowOf key l = some f) :
    f.lastSeen = (rules cfg).lastTime l ∧ f.protocol = key.protocol := by
  cases l with
  | nil => cases held
  | cons first rest =>
      obtain rfl := Option.some.inj held
      refine ⟨?_, rfl⟩
      simp [Rules.lastTime, rules, List.getLast?_cons]

end Replay

structure Refines (cfg : Config) (t : Table) (s : Log FlowKey Seen) : Prop where
  accounted : Accounted t
  config : t.cfg = cfg.effective
  flows : ∀ key, t.flows.lookup key = flowOf key (s key)

section Counts

variable {cfg : Config} {t : Table} {s : Log FlowKey Seen} {key : FlowKey}

private theorem ncard_keys (p : FlowKey → Bool) (m : FMap FlowKey Flow) :
    {k | k ∈ m ∧ p k = true}.ncard = countKeys p m := by
  have same : {k | k ∈ m ∧ p k = true} = ↑(m.keys.filter p).toFinset := by
    ext k
    simp [AList.mem_keys]
  rw [same, Set.ncard_coe_finset, List.toFinset_card_of_nodup (m.keys_nodup.filter p), countKeys,
    List.countP_eq_length_filter]

private theorem mem_live (refines : Refines cfg t s) : key ∈ live s ↔ key ∈ t.flows := by
  rw [← AList.lookup_isSome, refines.flows, Option.isSome_iff_ne_none, ne_eq, flowOf_eq_none]
  exact Iff.rfl

private theorem not_live (refines : Refines cfg t s) (absent : t.flows.lookup key = none) :
    key ∉ live s := fun known => AList.lookup_eq_none.mp absent ((mem_live refines).mp known)

private theorem live_ncard (refines : Refines cfg t s) : (live s).ncard = len t.flows := by
  rw [len_eq_countKeys, ← ncard_keys]
  congr 1
  ext k
  simp [mem_live refines]

private theorem share_eq (refines : Refines cfg t s) (src : String) :
    (rules cfg).share s src = flowsFrom t src := by
  rw [flowsFrom, ← ncard_keys, Rules.share]
  congr 1
  ext k
  simp [mem_live refines, rules]

private theorem reached_iff (refines : Refines cfg t s) (src : String) :
    t.reachedFlowLimitLocked src = true ↔
      ∃ q, (rules cfg).quota = some q ∧ q ≤ (rules cfg).share s src := by
  have limit : t.cfg.maxFlowsPerSrcIP = cfg.maxFlowsPerSrcIP := by
    rw [refines.config]
    rfl
  rw [Table.reachedFlowLimitLocked, decide_eq_true_eq, getD_count refines.accounted.counted, limit,
    share_eq refines]
  simp only [rules]
  split
  · next positive =>
      constructor
      · rintro ⟨-, full⟩
        exact ⟨_, rfl, by omega⟩
      · rintro ⟨q, known, full⟩
        obtain rfl := Option.some.inj known
        exact ⟨positive, by omega⟩
  · next none =>
      constructor
      · rintro ⟨positive, -⟩
        exact absurd positive none
      · rintro ⟨q, known, -⟩
        cases known

end Counts

section Eviction

private theorem evictScan_oldest (entries : List ((_ : FlowKey) × Flow))
    (best : Option (FlowKey × Time))
    {k : FlowKey} {seen : Time} (found : evictScan entries best = some (k, seen)) :
    ((∃ f, ⟨k, f⟩ ∈ entries ∧ f.lastSeen = seen) ∨ best = some (k, seen)) ∧
      (∀ e ∈ entries, seen ≤ e.2.lastSeen) ∧ ∀ b, best = some b → seen ≤ b.2 := by
  induction entries generalizing best with
  | nil =>
      refine ⟨.inr found, fun e none => absurd none List.not_mem_nil, fun b known => ?_⟩
      obtain rfl := Option.some.inj (known.symm.trans found)
      exact Nat.le_refl _
  | cons e rest ih =>
      obtain ⟨key, f⟩ := e
      -- The best entry after this one, which is this one or the best before it.
      have next : ∃ b, evictScan rest (some b) = some (k, seen) ∧ b.2 ≤ f.lastSeen ∧
          (b = (key, f.lastSeen) ∨ best = some b) ∧ ∀ b', best = some b' → b.2 ≤ b'.2 := by
        cases best with
        | none => exact ⟨_, found, Nat.le_refl _, .inl rfl, fun b' none => by cases none⟩
        | some old =>
            obtain ⟨oldKey, oldTime⟩ := old
            unfold evictScan at found
            split at found
            · next older =>
                refine ⟨_, found, Nat.le_refl _, .inl rfl, fun b' known => ?_⟩
                obtain rfl := Option.some.inj known
                exact Nat.le_of_lt older
            · next newer =>
                refine ⟨_, found, Nat.le_of_not_lt newer, .inr rfl, fun b' known => ?_⟩
                obtain rfl := Option.some.inj known
                exact Nat.le_refl _
      obtain ⟨b, later, within, origin, before⟩ := next
      obtain ⟨source, least, below⟩ := ih (some b) later
      have first := below b rfl
      refine ⟨?_, fun e member => ?_, fun b' known => first.trans (before b' known)⟩
      · rcases source with ⟨g, member, same⟩ | same
        · exact .inl ⟨g, List.mem_cons_of_mem _ member, same⟩
        · obtain rfl := Option.some.inj same
          rcases origin with same | known
          · obtain ⟨rfl, rfl⟩ := Prod.mk.inj same
            exact .inl ⟨f, List.mem_cons_self, rfl⟩
          · exact .inr known
      · rcases List.mem_cons.mp member with rfl | member
        · exact first.trans within
        · exact least e member

variable {cfg : Config} {t : Table} {s : Log FlowKey Seen}

private theorem evictIfFull_oldest (refines : Refines cfg t s) (o : FlowOrder)
    (full : t.cfg.maxEntries ≤ len t.flows) :
    ∃ v, (rules cfg).Oldest s v ∧ (t.evictIfFull o).flows = t.flows.erase v := by
  have capacity := refines.accounted.capacity
  obtain ⟨key, present, removed⟩ := evictOneLocked_spec t o (by omega)
  have evicted : (t.evictIfFull o).flows = (t.evictOneLocked o).flows := by
    rw [Table.evictIfFull, if_pos full]
  cases found : evictScan ((range o t.flows).take evictionSampleSize) none with
  | none =>
      have kept : t.evictOneLocked o = t := by
        rw [Table.evictOneLocked, found]
      have erased := congrArg Table.flows (kept.symm.trans removed)
      rw [removeLocked_flows] at erased
      rw [erased, AList.mem_erase] at present
      exact absurd rfl present.1
  | some oldest =>
      obtain ⟨v, seen⟩ := oldest
      obtain ⟨source, least, -⟩ := evictScan_oldest _ _ found
      rcases source with ⟨f, member, rfl⟩ | none
      · have known (k : FlowKey) (g : Flow)
            (inside : ⟨k, g⟩ ∈ (range o t.flows).take evictionSampleSize) :
            t.flows.lookup k = some g := mem_range_iff.mp (List.mem_of_mem_take inside)
        refine ⟨v, ⟨(((range o t.flows).take evictionSampleSize).map Sigma.fst).toFinset,
          ?_, ?_, ?_, ?_⟩, ?_⟩
        · exact List.mem_toFinset.mpr (List.mem_map_of_mem member)
        · intro k drawn
          obtain ⟨⟨j, g⟩, inside, rfl⟩ := List.mem_map.mp (List.mem_toFinset.mp drawn)
          exact (mem_live refines).mpr (mem_of_lookup (known j g inside))
        · have distinct : (((range o t.flows).take evictionSampleSize).map Sigma.fst).Nodup :=
            ((List.take_sublist _ _).map Sigma.fst).nodup (range_keys_nodup o t.flows)
          rw [List.toFinset_card_of_nodup distinct, List.length_map, List.length_take,
            range_length, live_ncard refines]
          rfl
        · intro k drawn
          obtain ⟨⟨j, g⟩, inside, rfl⟩ := List.mem_map.mp (List.mem_toFinset.mp drawn)
          have mine := flowOf_lastSeen cfg ((refines.flows v).symm.trans (known v f member))
          have other := flowOf_lastSeen cfg ((refines.flows j).symm.trans (known j g inside))
          rw [← mine.1, ← other.1]
          exact least ⟨j, g⟩ inside
        · rw [evicted, Table.evictOneLocked, found]
          exact removeLocked_flows t v
      · cases none

end Eviction

section Steps

variable {cfg : Config} {t : Table} {s : Log FlowKey Seen} {key : FlowKey} {o : FlowOrder}
  {clock : Clock} {flags : Option Flags} {r : Option Flow × Table}

private theorem lookup_update {m : FMap FlowKey Flow} {s' : Log FlowKey Seen} {l : List Seen}
    {f : Flow}
    (flows : ∀ k, m.lookup k = flowOf k (s' k)) (held : flowOf key l = some f) (k : FlowKey) :
    (m.insert key f).lookup k = flowOf k (Function.update s' key l k) := by
  rw [lookup_insert_eq]
  split
  · next same => rw [same, Function.update_self, held]
  · next other => rw [Function.update_of_ne other, flows]

private theorem lookup_erased {m : FMap FlowKey Flow} {s' : Log FlowKey Seen}
    (flows : ∀ k, m.lookup k = flowOf k (s' k)) (key k : FlowKey) :
    (m.erase key).lookup k = flowOf k (Function.update s' key [] k) := by
  rw [lookup_erase_eq]
  split
  · next same => rw [same, Function.update_self, flowOf]
  · next other => rw [Function.update_of_ne other, flows]

private theorem looked_simulated (refines : Refines cfg t s)
    (looked : Looked t o clock key (fun isNew p => phaseNext key.protocol isNew flags p) r) :
    ∃ out s', (rules cfg).Step s (.packet key ⟨clock, flags⟩) out s' ∧ r.1 = shown out ∧
      ∀ k, r.2.flows.lookup k = flowOf k (s' k) := by
  cases looked with
  | @hit f f' found updated =>
      have session : flowOf key (s key) = some f := (refines.flows key).symm.trans found
      have longer := flowOf_snoc session ⟨clock, flags⟩
      have known : key ∈ live s := (mem_live refines).mpr (mem_of_lookup found)
      refine ⟨_, _, .continued ⟨clock, flags⟩ known, ?_, fun k => ?_⟩
      · rw [updated]
        exact longer.symm
      · rw [updated]
        exact lookup_update refines.flows longer k
  | refused absent limited =>
      have new := not_live refines absent
      obtain ⟨q, limit, full⟩ := (reached_iff refines key.srcIP).mp limited
      exact ⟨none, s, .refused ⟨clock, flags⟩ new limit full, rfl, refines.flows⟩
  | @created f absent below made =>
      have new := not_live refines absent
      have free : (rules cfg).Below s key := by
        intro q limit
        by_contra full
        have reached := (reached_iff refines key.srcIP).mpr ⟨q, limit, Nat.le_of_not_lt full⟩
        rw [below] at reached
        cases reached
      have single : flowOf key [⟨clock, flags⟩] = some f := by
        rw [made]
        exact flowOf_single key ⟨clock, flags⟩
      have capacity := refines.accounted.capacity
      have size := live_ncard refines
      have room : (rules cfg).capacity = t.cfg.maxEntries.toNat := by
        rw [refines.config]
        rfl
      by_cases full : t.cfg.maxEntries ≤ len t.flows
      · obtain ⟨v, oldest, evicted⟩ := evictIfFull_oldest refines o full
        refine ⟨some (key, [⟨clock, flags⟩]), _,
          .replaced ⟨clock, flags⟩ new free (by omega) oldest, single.symm, fun k => ?_⟩
        change ((t.evictIfFull o).flows.insert key f).lookup k = _
        rw [evicted]
        exact lookup_update (lookup_erased refines.flows v) single k
      · refine ⟨some (key, [⟨clock, flags⟩]), _, .opened ⟨clock, flags⟩ new free (by omega),
          single.symm, fun k => ?_⟩
        change ((t.evictIfFull o).flows.insert key f).lookup k = _
        rw [Table.evictIfFull, if_neg full]
        exact lookup_update refines.flows single k

private theorem delete_simulated (refines : Refines cfg t s) (srcIP dstIP protocol : String)
    (srcPort dstPort : UInt16) (k : FlowKey) :
    (t.delete srcIP dstIP protocol srcPort dstPort).flows.lookup k =
      flowOf k (Function.update s (flowKey srcIP dstIP protocol srcPort dstPort) [] k) := by
  unfold Table.delete
  dsimp only
  split
  · rw [removeLocked_flows]
    exact lookup_erased refines.flows _ k
  · next absent =>
      have empty := lookup_erased refines.flows (flowKey srcIP dstIP protocol srcPort dstPort) k
      rw [← empty, lookup_erase_eq]
      split
      · next same => rw [same, AList.lookup_eq_none.mpr absent]
      · rfl

private theorem expire_simulated (refines : Refines cfg t s) (o : FlowOrder) (now : Time)
    (k : FlowKey) :
    (t.expire o now).flows.lookup k = flowOf k ((rules cfg).expired s now k) := by
  have timeout (protocol : String) :
      t.idleTimeoutFor protocol = (newTable cfg).idleTimeoutFor protocol := by
    unfold Table.idleTimeoutFor
    rw [refines.config]
    rfl
  change ((t.expiredKeys o now).foldl Table.removeLocked t).flows.lookup k = _
  rw [SourceView.foldl_removeLocked_flows, Rules.expired]
  by_cases held : ∃ f, t.flows.lookup k = some f
  · obtain ⟨f, found⟩ := held
    have session := (refines.flows k).symm.trans found
    obtain ⟨seen, protocol⟩ := flowOf_lastSeen cfg session
    have idle : k ∈ t.expiredKeys o now ↔
        (rules cfg).timeout k < (now : Int) - (rules cfg).lastTime (s k) := by
      rw [SourceView.mem_expiredKeys_iff, ← seen]
      change _ ↔ (newTable cfg).idleTimeoutFor k.protocol < _
      rw [← timeout, ← protocol]
      constructor
      · rintro ⟨g, same, idle⟩
        obtain rfl := Option.some.inj (found.symm.trans same)
        exact idle
      · exact fun idle => ⟨f, found, idle⟩
    simp only [idle]
    split
    · rfl
    · exact refines.flows k
  · have absent : t.flows.lookup k = none := by
      cases known : t.flows.lookup k with
      | none => rfl
      | some f => exact absurd ⟨f, known⟩ held
    have empty : s k = [] := flowOf_eq_none.mp ((refines.flows k).symm.trans absent)
    rw [absent, empty, ite_self, ite_self, flowOf]

private theorem apply_simulated (refines : Refines cfg t s) (op : Op) :
    ∃ out s', (rules cfg).Step s (actOf op) out s' ∧ answer t op = shown out ∧
      Refines cfg (t.apply op) s' := by
  have accounted := apply_accounted refines.accounted op
  have config := (apply_cfg t op).trans refines.config
  cases op with
  | lookupOrCreate o clock srcIP dstIP protocol srcPort dstPort =>
      have looked := lookupOrCreate_looked t o clock srcIP dstIP protocol srcPort dstPort
      obtain ⟨out, s', step, same, flows⟩ := @looked_simulated _ _ _ _ _ _ none _ refines looked
      exact ⟨out, s', step, same, accounted, config, flows⟩
  | updateTCPState o clock srcIP dstIP protocol srcPort dstPort g =>
      have looked := updateTCPState_looked t o clock srcIP dstIP protocol srcPort dstPort g
      obtain ⟨out, s', step, same, flows⟩ :=
        @looked_simulated _ _ _ _ _ _ (some g) _ refines looked
      exact ⟨out, s', step, same, accounted, config, flows⟩
  | delete srcIP dstIP protocol srcPort dstPort =>
      exact ⟨none, _, .closed _, rfl, accounted, config,
        delete_simulated refines srcIP dstIP protocol srcPort dstPort⟩
  | expire o now =>
      exact ⟨none, _, .expired now, rfl, accounted, config, expire_simulated refines o now⟩

private theorem run_simulated (refines : Refines cfg t s) (ops : List Op) :
    ∃ outs s', (rules cfg).Runs s (ops.map actOf) outs s' ∧
      answers t ops = outs.map shown ∧ Refines cfg (t.run ops) s' := by
  induction ops generalizing t s with
  | nil => exact ⟨[], s, .nil s, rfl, refines⟩
  | cons op rest ih =>
      obtain ⟨out, s', step, same, refines⟩ := apply_simulated refines op
      obtain ⟨outs, s'', runs, later, refines⟩ := ih refines
      refine ⟨out :: outs, s'', .cons step runs, ?_, refines⟩
      rw [answers, same, later, List.map_cons]

private theorem newTable_refines (cfg : Config) : Refines cfg (newTable cfg) fun _ => [] where
  accounted := newTable_accounted cfg
  config := rfl
  flows := fun _ => rfl

end Steps

/-- The table refines the log of sessions. Whatever calls are made on a new table, there is a run
of the log that gives the same answers to them, with quota, capacity, sampled eviction and idle
timeouts, and the flows that the table holds are the sessions that the log has open: their
packets counted, their first and last times, and the phase that their flags lead to. -/
theorem table_refines_sessions (cfg : Config) (ops : List Op) :
    ∃ outs log, (rules cfg).Runs (fun _ => []) (ops.map actOf) outs log ∧
      answers (newTable cfg) ops = outs.map shown ∧
      ∀ key, ((newTable cfg).run ops).flows.lookup key = flowOf key (log key) := by
  obtain ⟨outs, log, runs, same, refines⟩ := run_simulated (newTable_refines cfg) ops
  exact ⟨outs, log, runs, same, refines.flows⟩

/-- The 5-tuples of a run fit into the table and those of the source into its limit, the flow is
not deleted, and no expiry comes later than the timeout after its last packet. -/
structure Busy (cfg : Config) (ops : List Op) (key : FlowKey) : Prop where
  room : ((keysOf (ops.map actOf)).card : Int) ≤ cfg.effective.maxEntries
  share : 0 < cfg.maxFlowsPerSrcIP →
    ({j | j ∈ keysOf (ops.map actOf) ∧ j.srcIP = key.srcIP}.ncard : Int) ≤ cfg.maxFlowsPerSrcIP
  used : (rules cfg).InUse key [] (ops.map actOf)

private theorem Busy.lookup {cfg : Config} {ops : List Op} {key : FlowKey}
    (busy : Busy cfg ops key) :
    ((newTable cfg).run ops).flows.lookup key =
      flowOf key (packetsOf key (ops.map actOf)) := by
  obtain ⟨room, share, used⟩ := busy
  obtain ⟨outs, log, runs, -, refines⟩ := run_simulated (newTable_refines cfg) ops
  have fits : (keysOf (ops.map actOf)).card ≤ (rules cfg).capacity := by
    change _ ≤ cfg.effective.maxEntries.toNat
    omega
  have shares : ∀ q, (rules cfg).quota = some q →
      {j | j ∈ keysOf (ops.map actOf) ∧ (rules cfg).group j = (rules cfg).group key}.ncard ≤ q := by
    intro q limit
    simp only [rules] at limit
    split at limit
    · next positive =>
        obtain rfl := Option.some.inj limit
        have bound := share positive
        change {j | j ∈ keysOf (ops.map actOf) ∧ j.srcIP = key.srcIP}.ncard ≤ _
        omega
    · cases limit
  have all := runs.remembers (fun j held => absurd rfl held) (Finset.Subset.refl _) fits shares
    used
  rw [refines.flows, all, List.nil_append]

private theorem Busy.of_append {cfg : Config} {ops later : List Op} {key : FlowKey}
    (busy : Busy cfg (ops ++ later) key) : Busy cfg ops key := by
  obtain ⟨room, share, used⟩ := busy
  rw [List.map_append] at room share used
  rw [keysOf_append] at room share
  have fewer : keysOf (ops.map actOf) ⊆ keysOf (ops.map actOf) ∪ keysOf (later.map actOf) :=
    Finset.subset_union_left
  refine ⟨?_, fun positive => ?_, used.of_append⟩
  · have smaller := Finset.card_le_card fewer
    omega
  · have finite : {j | j ∈ keysOf (ops.map actOf) ∪ keysOf (later.map actOf) ∧
        j.srcIP = key.srcIP}.Finite :=
      (Finset.finite_toSet _).subset fun j member => member.1
    have inside : {j | j ∈ keysOf (ops.map actOf) ∧ j.srcIP = key.srcIP} ⊆
        {j | j ∈ keysOf (ops.map actOf) ∪ keysOf (later.map actOf) ∧ j.srcIP = key.srcIP} :=
      fun j member => ⟨fewer member.1, member.2⟩
    have smaller := Set.ncard_le_ncard inside finite
    have bound := share positive
    omega

/-- A connection in use is never forgotten: at every moment of the run the table holds it with all
its packets so far, the times of the first and the last, and the phase that all their flags lead
to. -/
theorem busy_flow_remembered (cfg : Config) (ops : List Op) (key : FlowKey)
    (busy : Busy cfg ops key) (before after : List Op) (moment : ops = before ++ after) :
    ((newTable cfg).run before).flows.lookup key =
      flowOf key (packetsOf key (before.map actOf)) := by
  subst moment
  exact busy.of_append.lookup

def segment (now : Time) (g : Flags) : Op :=
  .updateTCPState .stored ⟨now, now, now⟩ "10.0.1.100" "10.0.2.50" "TCP" 44001 443 g

def segmentKey : FlowKey := flowKey "10.0.1.100" "10.0.2.50" "TCP" 44001 443

/-- SYN, ACK a second later and an expiry after four minutes. -/
def shortExchange : List Op :=
  [segment 0 ⟨true, false, false, false⟩, segment 1000000000 ⟨false, true, false, false⟩,
    .expire .stored 240000000000]

private theorem shortExchange_busy : Busy defaultConfig shortExchange segmentKey where
  room := by decide +kernel
  share := fun positive => absurd positive (by decide)
  used := ⟨fun _ => by decide +kernel, trivial⟩

theorem shortExchange_remembered :
    (((newTable defaultConfig).run shortExchange).flows.lookup segmentKey).map Flow.packets =
      some 2 := by
  rw [busy_flow_remembered defaultConfig shortExchange segmentKey shortExchange_busy shortExchange
    [] (List.append_nil _).symm]
  decide +kernel

section Phases

def phases : List Phase :=
  [⟨.synSent, false⟩, ⟨.synReceived, false⟩, ⟨.synReceived, true⟩, ⟨.established, true⟩,
    ⟨.finWait1, false⟩, ⟨.finWait1, true⟩, ⟨.finWait2, false⟩, ⟨.finWait2, true⟩,
    ⟨.closing, false⟩, ⟨.closing, true⟩, ⟨.timeWait, false⟩, ⟨.timeWait, true⟩, ⟨.closed, false⟩]

private theorem phaseNext_old (protocol : String) (g : Flags) (p : Phase) :
    phaseNext protocol false (some g) p = tcpSwitch g p :=
  rfl

private theorem tcpSwitch_phases (g : Flags) : ∀ p ∈ phases, tcpSwitch g p ∈ phases := by
  obtain ⟨syn, ack, rst, fin⟩ := g
  revert syn ack rst fin
  decide

private theorem phaseNext_new (protocol : String) (flags : Option Flags) :
    phaseNext protocol true flags startPhase ∈ phases := by
  have fresh : ∀ g : Flags, ∀ overrides : Bool,
      (if overrides && !g.syn && !g.rst && !g.fin then
        { tcpSwitch g startPhase with tcpState := .synReceived } else tcpSwitch g startPhase) ∈
        phases := by
    rintro ⟨syn, ack, rst, fin⟩
    revert syn ack rst fin
    decide
  cases flags with
  | none => exact List.mem_cons_self
  | some g => exact fresh g (decide (protocol = "TCP"))

private theorem foldl_phases (protocol : String) (l : List Seen) {p : Phase} (start : p ∈ phases) :
    l.foldl (fun p seen => phaseNext protocol false seen.flags p) p ∈ phases := by
  induction l generalizing p with
  | nil => exact start
  | cons seen rest ih =>
      apply ih
      dsimp only
      cases seen.flags with
      | none => exact start
      | some g => exact tcpSwitch_phases g p start

private theorem phaseOf_phases (protocol : String) (l : List Seen) :
    phaseOf protocol l ∈ phases := by
  cases l with
  | nil => exact List.mem_cons_self
  | cons first rest => exact foldl_phases protocol rest (phaseNext_new protocol first.flags)

private theorem flowOf_phase {key : FlowKey} {l : List Seen} {f : Flow}
    (held : flowOf key l = some f) :
    f.phase = phaseOf key.protocol l := by
  cases l with
  | nil => cases held
  | cons first rest =>
      obtain rfl := Option.some.inj held
      rfl

private theorem keysOf_segments (gs : List Flags) :
    keysOf ((gs.map (segment 0)).map actOf) ⊆ {segmentKey} := by
  induction gs with
  | nil => exact Finset.empty_subset _
  | cons g gs ih => exact Finset.insert_subset (Finset.mem_singleton_self _) ih

private theorem segments_busy (gs : List Flags) :
    Busy defaultConfig (gs.map (segment 0)) segmentKey where
  room := by
    have one := Finset.card_le_card (keysOf_segments gs)
    rw [Finset.card_singleton] at one
    have large : (1 : Int) ≤ defaultConfig.effective.maxEntries := by decide
    omega
  share := fun positive => absurd positive (by decide)
  used := by
    generalize ([] : List Seen) = l
    induction gs generalizing l with
    | nil => trivial
    | cons g gs ih => exact ih _

private theorem packetsOf_segments (gs : List Flags) :
    packetsOf segmentKey ((gs.map (segment 0)).map actOf) =
      gs.map fun g => ⟨⟨0, 0, 0⟩, some g⟩ := by
  induction gs with
  | nil => rfl
  | cons g gs ih =>
      rw [List.map_cons, List.map_cons, List.map_cons, ← ih]
      exact if_pos rfl

def pathTo : Phase → List Flags
  | ⟨.synSent, _⟩ => [⟨false, false, false, true⟩]
  | ⟨.synReceived, false⟩ => [⟨true, false, false, false⟩]
  | ⟨.synReceived, true⟩ => [⟨false, true, false, false⟩]
  | ⟨.established, _⟩ => [⟨true, true, false, false⟩]
  | ⟨.finWait1, false⟩ => [⟨false, true, false, true⟩]
  | ⟨.finWait1, true⟩ => [⟨true, true, false, false⟩, ⟨false, true, false, true⟩]
  | ⟨.finWait2, false⟩ => [⟨false, true, false, true⟩, ⟨false, true, false, false⟩]
  | ⟨.finWait2, true⟩ =>
      [⟨true, true, false, false⟩, ⟨false, true, false, true⟩, ⟨false, true, false, false⟩]
  | ⟨.closing, false⟩ => [⟨false, true, false, true⟩, ⟨false, false, false, true⟩]
  | ⟨.closing, true⟩ =>
      [⟨true, true, false, false⟩, ⟨false, true, false, true⟩, ⟨false, false, false, true⟩]
  | ⟨.timeWait, false⟩ =>
      [⟨false, true, false, true⟩, ⟨false, true, false, true⟩, ⟨false, true, false, true⟩]
  | ⟨.timeWait, true⟩ =>
      [⟨true, true, false, false⟩, ⟨false, true, false, true⟩, ⟨false, true, false, true⟩,
        ⟨false, true, false, true⟩]
  | ⟨.closeWait, _⟩ | ⟨.closed, _⟩ => [⟨false, false, true, false⟩]

private theorem phaseOf_pathTo : ∀ p ∈ phases,
    pathTo p ≠ [] ∧ phaseOf "TCP" ((pathTo p).map fun g => ⟨⟨0, 0, 0⟩, some g⟩) = p := by
  decide

end Phases

/-- The phases of the TCP state machine, exactly: after any calls on any table the flows are in
these, and packets of one connection reach each of them. CLOSE_WAIT is never entered, a flow in
SYN_SENT is never established and one in ESTABLISHED always is, but a flow can be established in
SYN_RECEIVED. -/
theorem phases_exact :
    (∀ (cfg : Config) (ops : List Op) (key : FlowKey) (f : Flow),
      ((newTable cfg).run ops).flows.lookup key = some f → f.phase ∈ phases) ∧
    ∀ p ∈ phases, ∃ gs : List Flags, ∃ f, ((newTable defaultConfig).run
      (gs.map (segment 0))).flows.lookup segmentKey = some f ∧ f.phase = p := by
  constructor
  · intro cfg ops key f found
    obtain ⟨outs, log, -, -, refines⟩ := run_simulated (newTable_refines cfg) ops
    rw [flowOf_phase ((refines.flows key).symm.trans found)]
    exact phaseOf_phases key.protocol (log key)
  · intro p member
    obtain ⟨some_packet, leads⟩ := phaseOf_pathTo p member
    have held := (segments_busy (pathTo p)).lookup
    rw [packetsOf_segments] at held
    cases found : flowOf segmentKey ((pathTo p).map fun g => ⟨⟨0, 0, 0⟩, some g⟩) with
    | none => exact absurd (List.map_eq_nil_iff.mp (flowOf_eq_none.mp found)) some_packet
    | some f => exact ⟨pathTo p, f, held.trans found, (flowOf_phase found).trans leads⟩

section Closed

private theorem tcpSwitch_closed (g : Flags) : tcpSwitch g ⟨.closed, false⟩ = ⟨.closed, false⟩ := by
  obtain ⟨syn, ack, rst, fin⟩ := g
  revert syn ack rst fin
  decide

private theorem phaseOf_closed {protocol : String} {l : List Seen} (later : List Seen)
    (closed : phaseOf protocol l = ⟨.closed, false⟩) :
    phaseOf protocol (l ++ later) = ⟨.closed, false⟩ := by
  cases l with
  | nil => cases closed
  | cons first rest =>
      rw [List.cons_append, phaseOf, List.foldl_append]
      change later.foldl _ (phaseOf protocol (first :: rest)) = _
      rw [closed]
      induction later with
      | nil => rfl
      | cons seen later ih =>
          rw [List.foldl_cons]
          cases flags : seen.flags with
          | none => exact ih
          | some g =>
              rw [phaseNext_old, tcpSwitch_closed]
              exact ih

/-- No call takes the flow out of the table: it is not deleted, not evicted and not expired. -/
def Held (t : Table) (key : FlowKey) : List Op → Prop
  | [] => True
  | op :: ops => key ∈ (t.apply op).flows ∧ Held (t.apply op) key ops

private theorem run_closed {cfg : Config} {t : Table} {s : Log FlowKey Seen} {key : FlowKey}
    (refines : Refines cfg t s) {ops : List Op} (held : Held t key ops)
    (closed : phaseOf key.protocol (s key) = ⟨.closed, false⟩) :
    ∃ f, (t.run ops).flows.lookup key = some f ∧ f.phase = ⟨.closed, false⟩ := by
  induction ops generalizing t s with
  | nil =>
      cases found : t.flows.lookup key with
      | none =>
          rw [flowOf_eq_none.mp ((refines.flows key).symm.trans found)] at closed
          cases closed
      | some f =>
          have phase := flowOf_phase ((refines.flows key).symm.trans found)
          exact ⟨f, found, phase.trans closed⟩
  | cons op ops ih =>
      obtain ⟨present, later⟩ := held
      obtain ⟨out, s', step, -, next⟩ := apply_simulated refines op
      have before : key ∈ live s := by
        intro empty
        rw [empty] at closed
        cases closed
      obtain ⟨more, kept⟩ := step.keeps before ((mem_live next).mpr present)
      refine ih next later ?_
      rw [kept]
      exact phaseOf_closed more closed

end Closed

/-- A closed connection is not opened again. Once a flow is CLOSED, whatever calls follow, packets
of a new handshake of its 5-tuple included, it is CLOSED and not established as long as it is in
the table. -/
theorem closed_stays_closed (cfg : Config) (ops later : List Op) (key : FlowKey) (f : Flow)
    (found : ((newTable cfg).run ops).flows.lookup key = some f)
    (closed : f.tcpState = .closed) (held : Held ((newTable cfg).run ops) key later) :
    ∃ f', ((newTable cfg).run (ops ++ later)).flows.lookup key = some f' ∧
      f'.tcpState = .closed ∧ f'.established = false := by
  obtain ⟨outs, log, -, -, refines⟩ := run_simulated (newTable_refines cfg) ops
  have only : ∀ p ∈ phases, p.tcpState = .closed → p = ⟨.closed, false⟩ := by decide
  have phase := flowOf_phase ((refines.flows key).symm.trans found)
  have start : phaseOf key.protocol (log key) = ⟨.closed, false⟩ :=
    only _ (phaseOf_phases key.protocol (log key)) (by rw [← phase]; exact closed)
  obtain ⟨f', present, reached⟩ := run_closed refines held start
  rw [Table.run, List.foldl_append]
  exact ⟨f', present, congrArg Phase.tcpState reached, congrArg Phase.established reached⟩

def resetThenSyn : List Flags × List Flags :=
  ([⟨true, false, false, false⟩, ⟨false, false, true, false⟩],
    [⟨true, false, false, false⟩, ⟨false, true, false, false⟩])

theorem resetThenSyn_closed : ∃ f', ((newTable defaultConfig).run
    ((resetThenSyn.1 ++ resetThenSyn.2).map (segment 0))).flows.lookup segmentKey = some f' ∧
      f'.tcpState = .closed ∧ f'.established = false := by
  have start : ∃ f, ((newTable defaultConfig).run
      (resetThenSyn.1.map (segment 0))).flows.lookup segmentKey = some f ∧
        f.tcpState = .closed := by
    rw [(segments_busy resetThenSyn.1).lookup, packetsOf_segments]
    exact ⟨_, rfl, by decide⟩
  have held : Held ((newTable defaultConfig).run (resetThenSyn.1.map (segment 0))) segmentKey
      (resetThenSyn.2.map (segment 0)) :=
    ⟨by decide +kernel, by decide +kernel, trivial⟩
  obtain ⟨f, found, closed⟩ := start
  rw [List.map_append]
  exact closed_stays_closed defaultConfig _ _ segmentKey f found closed held

end L3Firewall.Conntrack.Sessions
