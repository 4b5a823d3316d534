/- Conntrack/TcpState
   source: internal/conntrack/table.go
   digest: What one call does to the TCP phase of every flow, and two runs that go wrong. -/

import L3Firewall.Conntrack.Accounting

set_option autoImplicit false
set_option relaxedAutoImplicit false

namespace L3Firewall.Conntrack.TcpState

open Foundation.FiniteMap
open Net.Address (normalizeIP)
open FlowTable
open Accounting (removeLocked_flows)

/-- The 5-tuple a call names. Expire names none. -/
def target : Op → Option FlowKey
  | .lookupOrCreate _ _ srcIP dstIP protocol srcPort dstPort =>
      some (flowKey srcIP dstIP protocol srcPort dstPort)
  | .updateTCPState _ _ srcIP dstIP protocol srcPort dstPort _ =>
      some (flowKey srcIP dstIP protocol srcPort dstPort)
  | .delete srcIP dstIP protocol srcPort dstPort =>
      some (flowKey srcIP dstIP protocol srcPort dstPort)
  | .expire _ _ => none

/-- The phase of a flow object before the switch has run on it. -/
def initialPhase : Phase := ⟨.synSent, false⟩

/-- The phase a call leaves on the flow of its own 5-tuple, given the phase tracked
before; `none` is an untracked 5-tuple. -/
def nextPhase : Op → Option Phase → Phase
  | .updateTCPState _ _ _ _ protocol _ _ g, old =>
      newFlowOverride old.isNone protocol g (tcpSwitch g (old.getD initialPhase))
  | _, old => old.getD initialPhase

section Frame

variable {t : Table} {k : FlowKey} {f : Flow}

private theorem removeLocked_lookup {key : FlowKey}
    (found : (t.removeLocked key).flows.lookup k = some f) : t.flows.lookup k = some f := by
  rw [removeLocked_flows, lookup_erase_eq] at found
  split at found
  · exact absurd found (by simp)
  · exact found

theorem evictIfFull_lookup {o : FlowOrder}
    (found : (t.evictIfFull o).flows.lookup k = some f) : t.flows.lookup k = some f := by
  unfold Table.evictIfFull Table.evictOneLocked at found
  split at found
  · dsimp only at found
    split at found
    · exact found
    · exact removeLocked_lookup found
  · exact found

theorem createLocked_lookup (t : Table) (o : FlowOrder) (clock : Clock) (key : FlowKey) (f : Flow)
    (k : FlowKey) : (t.createLocked o clock key f).flows.lookup k =
      if k = key then some f else (t.evictIfFull o).flows.lookup k :=
  lookup_insert_eq _ key k f

theorem delete_lookup {srcIP dstIP protocol : String} {srcPort dstPort : UInt16}
    (found : (t.delete srcIP dstIP protocol srcPort dstPort).flows.lookup k = some f) :
    t.flows.lookup k = some f := by
  unfold Table.delete at found
  dsimp only at found
  split at found
  · exact removeLocked_lookup found
  · exact found

private theorem foldl_removeLocked_lookup (keys : List FlowKey)
    (found : (keys.foldl Table.removeLocked t).flows.lookup k = some f) :
    t.flows.lookup k = some f := by
  induction keys generalizing t with
  | nil => exact found
  | cons key keys ih => exact removeLocked_lookup (ih found)

theorem expire_lookup {o : FlowOrder} {now : Time}
    (found : (t.expire o now).flows.lookup k = some f) : t.flows.lookup k = some f :=
  foldl_removeLocked_lookup _ found

private theorem looked_lookup {o : FlowOrder} {clock : Clock} {key : FlowKey}
    {phase : Bool → Phase → Phase} {r : Option Flow × Table} (looked : Looked t o clock key phase r)
    (found : r.2.flows.lookup k = some f) :
    t.flows.lookup k = some f ∨ k = key ∧
      (k ∉ t.flows → t.reachedFlowLimitLocked k.srcIP = false) ∧
      f.phase = phase ((t.flows.lookup k).map Flow.phase).isNone
        (((t.flows.lookup k).map Flow.phase).getD initialPhase) := by
  cases looked with
  | hit tracked updated =>
      change (t.flows.insert _ _).lookup k = some f at found
      rw [lookup_insert_eq] at found
      split at found
      · next own =>
        obtain rfl := Option.some.inj found
        exact .inr ⟨own, fun absent => absurd (mem_of_lookup (own ▸ tracked)) absent,
          by rw [own, tracked, updated]; rfl⟩
      · exact .inl found
  | refused untracked limited => exact .inl found
  | created untracked below made =>
      rw [createLocked_lookup] at found
      split at found
      · next own =>
        obtain rfl := Option.some.inj found
        exact .inr ⟨own, fun _ => own ▸ below, by rw [own, untracked, made]; rfl⟩
      · exact .inl (evictIfFull_lookup found)

/-- Everything a call can do to the phases: a flow found after it was there before, or
it is the flow of the call's own 5-tuple in its next phase, and if the call created it
the source was below its limit. -/
private theorem apply_lookup (op : Op) (found : (t.apply op).flows.lookup k = some f) :
    t.flows.lookup k = some f ∨
      target op = some k ∧ (k ∉ t.flows → t.reachedFlowLimitLocked k.srcIP = false) ∧
        f.phase = nextPhase op ((t.flows.lookup k).map Flow.phase) := by
  cases op with
  | lookupOrCreate o clock srcIP dstIP protocol srcPort dstPort =>
      rcases looked_lookup (lookupOrCreate_looked t o clock srcIP dstIP protocol srcPort dstPort)
        found with kept | ⟨own, guard, phase⟩
      · exact .inl kept
      · exact .inr ⟨congrArg some own.symm, guard, phase⟩
  | updateTCPState o clock srcIP dstIP protocol srcPort dstPort g =>
      rcases looked_lookup
        (updateTCPState_looked t o clock srcIP dstIP protocol srcPort dstPort g)
        found with kept | ⟨own, guard, phase⟩
      · exact .inl kept
      · exact .inr ⟨congrArg some own.symm, guard, phase⟩
  | delete srcIP dstIP protocol srcPort dstPort => exact .inl (delete_lookup found)
  | expire o now => exact .inl (expire_lookup found)

private theorem updateTCPState_tracked (o : FlowOrder) (clock : Clock)
    (srcIP dstIP protocol : String) (srcPort dstPort : UInt16) (g : Flags)
    (below : t.reachedFlowLimitLocked (normalizeIP srcIP) = false) :
    ∃ f, (t.updateTCPState o clock srcIP dstIP protocol srcPort dstPort g).2.flows.lookup
        (flowKey srcIP dstIP protocol srcPort dstPort) = some f ∧
      (flowKey srcIP dstIP protocol srcPort dstPort ∉ t.flows → f.protocol = protocol ∧
        f.phase = newFlowOverride true protocol g (tcpSwitch g initialPhase)) := by
  have looked := updateTCPState_looked t o clock srcIP dstIP protocol srcPort dstPort g
  generalize t.updateTCPState o clock srcIP dstIP protocol srcPort dstPort g = r at looked
  cases looked with
  | hit tracked updated =>
      exact ⟨_, AList.lookup_insert _, fun absent => absurd (mem_of_lookup tracked) absent⟩
  | refused untracked limited => exact absurd (below.symm.trans limited) nofun
  | created untracked below made =>
      subst made
      exact ⟨_, AList.lookup_insert _, fun _ => ⟨rfl, rfl⟩⟩

end Frame

section Established

/-- The states of a connection that both ends have acknowledged. -/
def synchronized : List TCPState :=
  [.established, .finWait1, .finWait2, .closing, .timeWait, .closeWait]

def Agrees (f : Flow) : Prop :=
  (f.protocol = "TCP" → f.established = true → f.tcpState ∈ synchronized) ∧
    (f.tcpState = .closed → f.established = false)

instance (f : Flow) : Decidable (Agrees f) := inferInstanceAs (Decidable (_ ∧ _))

def Consistent (p : Phase) : Prop := p.established = true → p.tcpState ∈ synchronized

instance (p : Phase) : Decidable (Consistent p) := inferInstanceAs (Decidable (_ → _))

private theorem Consistent.agrees {f : Flow} (consistent : Consistent f.phase) : Agrees f := by
  refine ⟨fun _ established => consistent established, fun closed => ?_⟩
  have outside : f.phase.tcpState ∉ synchronized := by
    change f.tcpState ∉ synchronized
    rw [closed]
    decide
  exact Bool.eq_false_iff.mpr fun established => outside (consistent established)

private theorem finAck_consistent {p : Phase} (consistent : Consistent p) :
    Consistent (finAck p) := by
  obtain ⟨state, established⟩ := p
  cases state <;> cases established <;> revert consistent <;> decide

private theorem plainFin_consistent {p : Phase} (consistent : Consistent p) :
    Consistent (plainFin p) := by
  obtain ⟨state, established⟩ := p
  cases state <;> cases established <;> revert consistent <;> decide

private theorem pureAck_consistent {p : Phase} (consistent : Consistent p) :
    Consistent (pureAck p) := by
  obtain ⟨state, established⟩ := p
  cases state <;> cases established <;> revert consistent <;> decide

private theorem tcpSwitch_consistent (g : Flags) {p : Phase} (consistent : Consistent p) :
    Consistent (tcpSwitch g p) := by
  unfold tcpSwitch
  split_ifs with rst synAck synSent syn fromSent fin plain ack
  · intro impossible; exact absurd impossible (by decide)
  · intro _; decide
  · exact consistent
  · intro established
    have member := consistent established
    rw [fromSent] at member
    exact absurd member (by decide)
  · exact consistent
  · exact finAck_consistent consistent
  · exact plainFin_consistent consistent
  · exact pureAck_consistent consistent
  · exact consistent

def bareAck : Flags := ⟨false, true, false, false⟩

private theorem created_consistent_iff (protocol : String) (g : Flags) :
    Consistent (newFlowOverride true protocol g (tcpSwitch g initialPhase)) ↔
      ¬ (protocol = "TCP" ∧ g = bareAck) := by
  obtain ⟨syn, ack, rst, fin⟩ := g
  unfold newFlowOverride
  by_cases tcp : protocol = "TCP"
  · simp only [tcp, decide_true]
    revert syn ack rst fin
    decide
  · simp only [tcp, decide_false, Bool.and_false, Bool.false_and, Bool.false_eq_true, if_false,
      false_and, not_false_eq_true, iff_true]
    exact tcpSwitch_consistent _ (by decide)

/-- The call in which a bare ACK of an untracked TCP 5-tuple creates its flow. -/
def OpensByAck (t : Table) : Op → Prop
  | .updateTCPState _ _ srcIP dstIP protocol srcPort dstPort g =>
      protocol = "TCP" ∧ g = bareAck ∧
        flowKey srcIP dstIP protocol srcPort dstPort ∉ t.flows ∧
        t.reachedFlowLimitLocked (normalizeIP srcIP) = false
  | _ => False

def AllConsistent (t : Table) : Prop :=
  ∀ k f, t.flows.lookup k = some f → Consistent f.phase

private theorem apply_allConsistent {t : Table} (all : AllConsistent t) (op : Op)
    (sound : ¬ OpensByAck t op) : AllConsistent (t.apply op) := by
  intro k f found
  rcases apply_lookup op found with kept | ⟨own, guard, phase⟩
  · exact all k f kept
  · have tracked : Consistent (((t.flows.lookup k).map Flow.phase).getD initialPhase) := by
      cases before : t.flows.lookup k with
      | none => exact (by decide : Consistent initialPhase)
      | some old => exact all k old before
    rw [phase]
    cases op with
    | lookupOrCreate o clock srcIP dstIP protocol srcPort dstPort => exact tracked
    | delete srcIP dstIP protocol srcPort dstPort => exact tracked
    | expire o now => exact tracked
    | updateTCPState o clock srcIP dstIP protocol srcPort dstPort g =>
        obtain rfl := Option.some.inj own
        unfold nextPhase
        cases before : t.flows.lookup (flowKey srcIP dstIP protocol srcPort dstPort) with
        | some old => exact tcpSwitch_consistent g (all _ old before)
        | none =>
            have absent := AList.lookup_eq_none.mp before
            refine (created_consistent_iff protocol g).mpr fun ⟨tcp, bare⟩ => ?_
            exact sound ⟨tcp, bare, absent, guard absent⟩

private theorem opensByAck_disagrees {t : Table} {op : Op} (opens : OpensByAck t op) :
    ∃ k f, (t.apply op).flows.lookup k = some f ∧ ¬ Agrees f := by
  cases op with
  | lookupOrCreate o clock srcIP dstIP protocol srcPort dstPort => exact opens.elim
  | delete srcIP dstIP protocol srcPort dstPort => exact opens.elim
  | expire o now => exact opens.elim
  | updateTCPState o clock srcIP dstIP protocol srcPort dstPort g =>
      obtain ⟨rfl, rfl, absent, below⟩ := opens
      obtain ⟨f, found, created⟩ :=
        updateTCPState_tracked o clock srcIP dstIP "TCP" srcPort dstPort bareAck below
      obtain ⟨tcp, phase⟩ := created absent
      refine ⟨_, f, found, fun agrees => ?_⟩
      have disagree : ¬ Consistent f.phase := by
        rw [phase, created_consistent_iff]
        exact not_not.mpr ⟨rfl, rfl⟩
      exact disagree (agrees.1 tcp)

private theorem run_append (t : Table) (pre : List Op) (op : Op) :
    t.run (pre ++ [op]) = (t.run pre).apply op := by
  rw [Table.run, List.foldl_append]
  rfl

private theorem run_allConsistent (cfg : Config) (ops : List Op)
    (sound : ∀ pre op, pre ++ [op] <+: ops → ¬ OpensByAck ((newTable cfg).run pre) op) :
    AllConsistent ((newTable cfg).run ops) := by
  induction ops using List.reverseRecOn with
  | nil =>
      intro k f found
      exact absurd found (by simp [Table.run, newTable])
  | append_singleton ops op ih =>
      rw [run_append]
      have earlier := ih fun pre next inside =>
        sound pre next (inside.trans (List.prefix_append ops [op]))
      exact apply_allConsistent earlier op (sound ops op (List.prefix_refl _))

/-- Established agrees with the TCP state in every table that a run of calls passes
through if and only if no call of the run is a bare ACK that creates its flow. -/
theorem established_agrees_iff (cfg : Config) (ops : List Op) :
    (∀ pre, pre <+: ops → ∀ k f, ((newTable cfg).run pre).flows.lookup k = some f → Agrees f) ↔
      ∀ pre op, pre ++ [op] <+: ops → ¬ OpensByAck ((newTable cfg).run pre) op := by
  constructor
  · intro agree pre op inside opens
    obtain ⟨k, f, found, disagrees⟩ := opensByAck_disagrees opens
    rw [← run_append] at found
    exact disagrees (agree _ inside k f found)
  · intro sound pre inside k f found
    have consistent := run_allConsistent cfg pre fun earlier op before =>
      sound earlier op (before.trans inside)
    exact (consistent k f found).agrees

/-- One ACK on an untracked 5-tuple is reported as established in SYN_RECEIVED. -/
theorem bare_ack_reports_established :
    let op := Op.updateTCPState .stored ⟨0, 0, 0⟩ "10.0.1.100" "10.0.2.50" "TCP" 44001 443 bareAck
    let k := flowKey "10.0.1.100" "10.0.2.50" "TCP" 44001 443
    ((((newTable defaultConfig).run [op]).flows.lookup k).map fun f =>
      (f.established, f.tcpState, decide (Agrees f))) = some (true, .synReceived, false) := by
  decide +kernel

end Established

section Handshake

/-- Calls that name none of the given 5-tuples and remove none of their flows. -/
def Undisturbed (ks : List FlowKey) : Table → List Op → Prop
  | _, [] => True
  | t, op :: ops =>
      (∀ k ∈ ks, target op ≠ some k ∧ (k ∈ t.flows → k ∈ (t.apply op).flows)) ∧
        Undisturbed ks (t.apply op) ops

private theorem run_lookup_of_undisturbed {ks : List FlowKey} {t : Table} {ops : List Op}
    (calm : Undisturbed ks t ops) {k : FlowKey} (member : k ∈ ks) :
    (t.run ops).flows.lookup k = t.flows.lookup k := by
  induction ops generalizing t with
  | nil => rfl
  | cons op ops ih =>
      obtain ⟨step, rest⟩ := calm
      obtain ⟨foreign, keeps⟩ := step k member
      refine (ih rest).trans ?_
      have old {f : Flow} (found : (t.apply op).flows.lookup k = some f) :
          t.flows.lookup k = some f := by
        rcases apply_lookup op found with kept | ⟨own, -, -⟩
        · exact kept
        · exact absurd own foreign
      cases after : (t.apply op).flows.lookup k with
      | some f => exact (old after).symm
      | none =>
          by_contra tracked
          have present : k ∈ t.flows := by
            rw [← AList.lookup_isSome, Option.isSome_iff_ne_none]
            exact fun absent => tracked absent.symm
          exact AList.lookup_eq_none.mp after (keeps present)

/-- A three-way handshake between two endpoints: what the table had seen before it,
the three packets, and the calls made between them. -/
structure Handshake where
  cfg : Config
  history : List Op
  client : String
  server : String
  clientPort : UInt16
  serverPort : UInt16
  order : Fin 3 → FlowOrder
  clock : Fin 3 → Clock
  betweenSynAndSynAck : List Op
  betweenSynAckAndAck : List Op

namespace Handshake

variable (h : Handshake)

def toServer : FlowKey := flowKey h.client h.server "TCP" h.clientPort h.serverPort

def toClient : FlowKey := flowKey h.server h.client "TCP" h.serverPort h.clientPort

def start : Table := (newTable h.cfg).run h.history

def afterSyn : Table :=
  h.start.apply (.updateTCPState (h.order 0) (h.clock 0) h.client h.server "TCP" h.clientPort
    h.serverPort ⟨true, false, false, false⟩)

def beforeSynAck : Table := h.afterSyn.run h.betweenSynAndSynAck

def afterSynAck : Table :=
  h.beforeSynAck.apply (.updateTCPState (h.order 1) (h.clock 1) h.server h.client "TCP"
    h.serverPort h.clientPort ⟨true, true, false, false⟩)

def beforeAck : Table := h.afterSynAck.run h.betweenSynAckAndAck

def final : Table :=
  h.beforeAck.apply (.updateTCPState (h.order 2) (h.clock 2) h.client h.server "TCP" h.clientPort
    h.serverPort ⟨false, true, false, false⟩)

/-- Both 5-tuples start absent or CLOSED, both endpoints are below their limit, and the
calls in between leave the two flows alone. -/
structure Valid : Prop where
  idle : ∀ k ∈ [h.toServer, h.toClient], ∀ f, h.start.flows.lookup k = some f →
    f.tcpState = .closed
  clientBelow : h.start.reachedFlowLimitLocked (normalizeIP h.client) = false
  serverBelow : h.start.reachedFlowLimitLocked (normalizeIP h.server) = false
  calmSyn : Undisturbed [h.toServer, h.toClient] h.afterSyn h.betweenSynAndSynAck
  calmSynAck : Undisturbed [h.toServer, h.toClient] h.afterSynAck h.betweenSynAckAndAck

def Tracked : Prop :=
  ∀ k ∈ [h.toServer, h.toClient], ∃ f, h.final.flows.lookup k = some f ∧
    f.established = true ∧ f.tcpState = .established

end Handshake

/-- A flow that a later ACK does not move to ESTABLISHED. -/
def Stuck (p : Phase) : Prop := p.tcpState = .synReceived ∨ p.tcpState = .closed

private theorem syn_stuck {old : Option Phase}
    (idle : ∀ p, old = some p → p.tcpState = .closed) :
    Stuck (newFlowOverride old.isNone "TCP" ⟨true, false, false, false⟩
      (tcpSwitch ⟨true, false, false, false⟩ (old.getD initialPhase))) := by
  cases old with
  | none => exact .inl rfl
  | some p =>
      have closed := idle p rfl
      obtain ⟨state, established⟩ := p
      dsimp only at closed
      subst closed
      exact .inr rfl

private theorem synAck_stuck {p : Phase} (stuck : Stuck p) :
    tcpSwitch ⟨true, true, false, false⟩ p = p := by
  obtain ⟨state, established⟩ := p
  rcases stuck with received | closed
  · dsimp only at received
    subst received
    rfl
  · dsimp only at closed
    subst closed
    rfl

private theorem ack_not_established {old : Option Phase} (stuck : ∀ p, old = some p → Stuck p) :
    (newFlowOverride old.isNone "TCP" bareAck
      (tcpSwitch bareAck (old.getD initialPhase))).tcpState ≠ .established := by
  cases old with
  | none => decide
  | some p =>
      obtain ⟨state, established⟩ := p
      rcases stuck _ rfl with received | closed
      · dsimp only at received
        subst received
        exact nofun
      · dsimp only at closed
        subst closed
        exact nofun

def StuckAt (k : FlowKey) (t : Table) : Prop :=
  ∀ f, t.flows.lookup k = some f → Stuck f.phase

namespace Handshake

variable {h : Handshake}

private theorem afterSyn_stuck (valid : h.Valid) :
    h.toServer ∈ h.afterSyn.flows ∧ StuckAt h.toServer h.afterSyn := by
  have idle := valid.idle h.toServer List.mem_cons_self
  constructor
  · obtain ⟨f, found, -⟩ := updateTCPState_tracked (h.order 0) (h.clock 0) h.client h.server "TCP"
      h.clientPort h.serverPort ⟨true, false, false, false⟩ valid.clientBelow
    exact mem_of_lookup found
  · intro f found
    rcases apply_lookup _ found with kept | ⟨-, -, phase⟩
    · exact .inr (idle f kept)
    · rw [phase]
      refine syn_stuck fun p tracked => ?_
      obtain ⟨old, held, rfl⟩ := Option.map_eq_some_iff.mp tracked
      exact idle old held

private theorem afterSynAck_stuck (valid : h.Valid) : StuckAt h.toServer h.afterSynAck := by
  obtain ⟨present, stuck⟩ := afterSyn_stuck valid
  have same := run_lookup_of_undisturbed valid.calmSyn (List.mem_cons_self (a := h.toServer))
  change h.beforeSynAck.flows.lookup _ = _ at same
  intro f found
  rcases apply_lookup _ found with kept | ⟨-, -, phase⟩
  · exact stuck f (same.symm.trans kept)
  · obtain ⟨old, held⟩ := Option.isSome_iff_exists.mp (AList.lookup_isSome.mpr present)
    rw [same, held] at phase
    rw [phase]
    change Stuck (tcpSwitch ⟨true, true, false, false⟩ old.phase)
    rw [synAck_stuck (stuck old held)]
    exact stuck old held

private theorem final_not_established (valid : h.Valid) {f : Flow}
    (found : h.final.flows.lookup h.toServer = some f) : f.tcpState ≠ .established := by
  have same := run_lookup_of_undisturbed valid.calmSynAck (List.mem_cons_self (a := h.toServer))
  have stuck : StuckAt h.toServer h.beforeAck :=
    fun f found => afterSynAck_stuck valid f (same.symm.trans found)
  rcases apply_lookup _ found with kept | ⟨-, -, phase⟩
  · intro established
    rcases stuck f kept with received | closed
    · exact absurd (established.symm.trans received) (by decide)
    · exact absurd (established.symm.trans closed) (by decide)
  · change f.phase.tcpState ≠ .established
    rw [phase]
    refine ack_not_established fun p tracked => ?_
    obtain ⟨old, held, rfl⟩ := Option.map_eq_some_iff.mp tracked
    exact stuck old held

end Handshake

/-- No completed handshake is tracked as established in both directions: the client's
own flow never leaves the state its SYN put it into. -/
theorem handshake_never_tracked (h : Handshake) (valid : h.Valid) : ¬ h.Tracked := by
  intro tracked
  obtain ⟨f, found, -, established⟩ := tracked h.toServer List.mem_cons_self
  exact Handshake.final_not_established valid found established

/-- A handshake on an empty table with nothing in between. -/
def plainHandshake : Handshake where
  cfg := defaultConfig
  history := []
  client := "10.0.1.100"
  server := "10.0.2.50"
  clientPort := 44001
  serverPort := 443
  order := fun _ => .stored
  clock := fun _ => ⟨0, 0, 0⟩
  betweenSynAndSynAck := []
  betweenSynAckAndAck := []

/-- The client's direction ends in SYN_RECEIVED, the server's in ESTABLISHED. -/
theorem plainHandshake_untracked :
    plainHandshake.Valid ∧ ¬ plainHandshake.Tracked ∧
      (plainHandshake.final.flows.lookup plainHandshake.toServer).map Flow.phase =
        some ⟨.synReceived, false⟩ ∧
      (plainHandshake.final.flows.lookup plainHandshake.toClient).map Flow.phase =
        some ⟨.established, true⟩ := by
  have toServer : (plainHandshake.final.flows.lookup plainHandshake.toServer).map Flow.phase =
      some ⟨.synReceived, false⟩ := by decide +kernel
  refine ⟨⟨fun k _ f found => ?_, by decide, by decide, trivial, trivial⟩, fun tracked => ?_,
    toServer, by decide +kernel⟩
  · exact absurd found (by simp [Handshake.start, plainHandshake, Table.run, newTable])
  · obtain ⟨f, found, -, established⟩ := tracked _ List.mem_cons_self
    rw [found] at toServer
    have received : f.tcpState = .synReceived := congrArg Phase.tcpState (Option.some.inj toServer)
    exact absurd (established.symm.trans received) (by decide)

/-- The same endpoints after a reset of both directions, with a lookup of another source
between the SYN and the SYN+ACK. -/
def reusedHandshake : Handshake :=
  { plainHandshake with
    history :=
      [.updateTCPState .stored ⟨0, 0, 0⟩ "10.0.1.100" "10.0.2.50" "TCP" 44001 443
          ⟨false, false, true, false⟩,
        .updateTCPState .stored ⟨0, 0, 0⟩ "10.0.2.50" "10.0.1.100" "TCP" 443 44001
          ⟨false, true, true, false⟩]
    betweenSynAndSynAck :=
      [.lookupOrCreate .stored ⟨1, 1, 1⟩ "10.0.9.9" "10.0.2.50" "UDP" 5353 53] }

theorem reusedHandshake_untracked : reusedHandshake.Valid ∧ ¬ reusedHandshake.Tracked := by
  have closed : ∀ k ∈ [reusedHandshake.toServer, reusedHandshake.toClient],
      (reusedHandshake.start.flows.lookup k).map Flow.tcpState = some .closed := by
    decide +kernel
  have valid : reusedHandshake.Valid :=
    { idle := fun k member f found => by
        have state := closed k member
        rw [found] at state
        exact Option.some.inj state
      clientBelow := by decide +kernel
      serverBelow := by decide +kernel
      calmSyn := ⟨by decide +kernel, trivial⟩
      calmSynAck := trivial }
  exact ⟨valid, handshake_never_tracked reusedHandshake valid⟩

end Handshake

end L3Firewall.Conntrack.TcpState
