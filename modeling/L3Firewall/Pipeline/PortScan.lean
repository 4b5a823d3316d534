/- Pipeline/PortScan
   source: internal/engine/engine.go, internal/conntrack/table.go, opa-policies/l3.rego
   digest: The rule on port scans counts the distinct ports of a source since it last had no
   flow. -/

import L3Firewall.Conntrack.PortHistory
import L3Firewall.Foundation.Runs
import L3Firewall.Pipeline.Frame
import L3Firewall.Pipeline.Quiet

set_option autoImplicit false
set_option relaxedAutoImplicit false

namespace L3Firewall.Pipeline.PortScan

open Foundation.FiniteMap
open Foundation.Recover
open Foundation.Recover.Action
open Foundation.Rego (Builtins)
open Foundation.Runs
open Net.Address (normalizeIP)
open Conntrack.FlowTable Conntrack.Accounting Conntrack.PortHistory
open Packet.Parser (PacketInfo)
open Opa.Document (Input)
open Opa.Policy (shipped deny_port_scan)
open Opa.Denials (deny_port_scan_iff)
open Handlers FailClosed Quiet
open L3Firewall.Pipeline.Frame

section Table

variable {env : Env} {pi : PacketInfo} {size : Nat} {t : Table} {e : Engine}

def trackOp (env : Env) (pi : PacketInfo) : Op :=
  if pi.protocol = "TCP" then
    .updateTCPState env.flowOrder env.flowClock pi.srcIP pi.dstIP pi.protocol pi.srcPort pi.dstPort
      (flags pi)
  else
    .lookupOrCreate env.flowOrder env.flowClock pi.srcIP pi.dstIP pi.protocol pi.srcPort pi.dstPort

theorem trackFlow_table (env : Env) (pi : PacketInfo) (t : Table) :
    (trackFlow env pi t).2 = t.apply (trackOp env pi) := by
  unfold trackFlow trackOp
  split <;> rfl

/-- The table that a packet leaves. Without random bytes for its trace it is not tracked, and
at the limit of its source its port is not recorded. -/
def tableAfter (env : Env) (pi : PacketInfo) (t : Table) : Table :=
  match env.traceBytes, (trackFlow env pi t).1 with
  | .error _, _ => t
  | .ok _, none => (trackFlow env pi t).2
  | .ok _, some _ => trackedTable env pi t

private theorem conntrack_passive (table : Option Table) : Passive fun e => e.conntrack = table :=
  ⟨fun _ same => same, fun _ same => same, fun _ _ _ _ _ same => same, fun _ _ same => same,
    fun _ _ same => same⟩

private theorem gather_table :
    (gather env pi size).Leads (fun e => e.conntrack = some t)
      fun e => e.conntrack = some (tableAfter env pi t) := by
  intro e present
  have counted : (update Engine.countProcessed).Returns e () e.countProcessed :=
    returns_update.mpr rfl
  unfold gather
  rw [counted.then]
  cases traced : env.traceBytes with
  | error err =>
      have panicked : newTraceID env e.countProcessed =
          (.error ("crypto/rand: " ++ err), e.countProcessed) := by
        rw [newTraceID, traced]
        rfl
      rw [bind_panicked panicked]
      simp only [tableAfter, traced]
      exact present
  | ok bytes =>
      have named : (newTraceID env).Returns e.countProcessed
          (String.ofList (bytes.flatMap hexDigits)) e.countProcessed := by
        rw [newTraceID, traced]
        exact returns_pure.mpr ⟨rfl, rfl⟩
      have found : (deref e.countProcessed.conntrack).Returns e.countProcessed t e.countProcessed :=
        returns_deref.mpr ⟨present, rfl⟩
      have tracked : (update fun e => { e with conntrack := some (trackFlow env pi t).2 }).Returns
          e.countProcessed () { e.countProcessed with conntrack := some (trackFlow env pi t).2 } :=
        returns_update.mpr rfl
      rw [named.then, (returns_read.mpr ⟨rfl, rfl⟩ : Returns read e.countProcessed _ _).then,
        found.then, tracked.then]
      cases flow : (trackFlow env pi t).1 with
      | none =>
          simp only [tableAfter, traced, flow]
          exact keeps_bind (blockAndAlert_keeps (conntrack_passive _) _ _ _)
            (fun _ => keeps_pure _) _ rfl
      | some flow' =>
          simp only [tableAfter, traced, flow]
          have stored :
              (update fun e => { e with conntrack := some (trackedTable env pi t) }).Returns
              { e.countProcessed with conntrack := some (trackFlow env pi t).2 } ()
              { e.countProcessed with conntrack := some (trackedTable env pi t) } :=
            returns_update.mpr rfl
          rw [stored.then]
          cases macRefusal e.countProcessed.l2Filter pi.srcMAC with
          | some reason =>
              exact keeps_bind (block_keeps (conntrack_passive _) _) (fun _ => keeps_pure _) _ rfl
          | none => exact gatherRates_keeps (conntrack_passive _) size _ _ rfl

theorem evaluatePacket_table (present : e.conntrack = some t) :
    (evaluatePacket env pi size e).2.conntrack = some (tableAfter env pi t) := by
  have body : (evaluateBody env pi size).Leads (fun e => e.conntrack = some t)
      fun e => e.conntrack = some (tableAfter env pi t) := by
    refine leads_bind gather_table fun gathered => ?_
    split
    · exact keeps_pure _
    · exact conclude_keeps (conntrack_passive _) _
  refine leads_recover body (fun text => ?_) e present
  exact keeps_bind (keeps_update fun _ same => same) fun _ => keeps_pure _

theorem trackFlow_live {flow : Flow} (tracked : (trackFlow env pi t).1 = some flow) :
    0 < flowsFrom (trackFlow env pi t).2 (normalizeIP pi.srcIP) := by
  obtain ⟨phase, looked⟩ := trackFlow_looked env pi t
  generalize trackFlow env pi t = r at looked tracked
  have stored : flowKey pi.srcIP pi.dstIP pi.protocol pi.srcPort pi.dstPort ∈ r.2.flows := by
    cases looked with
    | hit found updated => exact (AList.mem_insert _).mpr (.inl rfl)
    | refused absent limited => exact absurd tracked nofun
    | created absent below made => exact (AList.mem_insert _).mpr (.inl rfl)
  exact flowsFrom_pos stored

end Table

section Runs

/-- The engine, and what has been recorded of each source. -/
structure State where
  engine : Engine
  history : History

/-- The history that a packet leaves: that of the table's moments, and the packet's own port
if the packet has a flow and ports. -/
def historyAfter (env : Env) (pi : PacketInfo) (t : Table) (h : History) : History :=
  match env.traceBytes, (trackFlow env pi t).1 with
  | .error _, _ => h
  | .ok _, none => through h (moments t (trackOp env pi))
  | .ok _, some _ =>
      if pi.protocol = "TCP" ∨ pi.protocol = "UDP" then
        record (through h (moments t (trackOp env pi))) (normalizeIP pi.srcIP) pi.dstPort
      else through h (moments t (trackOp env pi))

/-- Packets are evaluated one at a time; between two of them flows are deleted and expire. -/
inductive Act
  | packet (env : Env) (pi : PacketInfo) (size : Nat)
  | delete (srcIP dstIP protocol : String) (srcPort dstPort : UInt16)
  | expire (o : FlowOrder) (now : Time)

/-- One call of the table outside the evaluation of a packet. -/
def State.call (s : State) (t : Table) (op : Op) : State where
  engine := { s.engine with conntrack := some (t.apply op) }
  history := through s.history (moments t op)

def next (s : State) (a : Act) : Option State :=
  s.engine.conntrack.map fun t =>
    match a with
    | .packet env pi size =>
        ⟨(evaluatePacket env pi size s.engine).2, historyAfter env pi t s.history⟩
    | .delete srcIP dstIP protocol srcPort dstPort =>
        s.call t (.delete srcIP dstIP protocol srcPort dstPort)
    | .expire o now => s.call t (.expire o now)

def scanning (cfg : Config) : Machine State Act where
  init s := s.engine.conntrack = some (newTable cfg) ∧ s.history = fun _ => []
  next := next

structure Followed (cfg : Config) (s : State) (t : Table) : Prop where
  table : s.engine.conntrack = some t
  cfg : t.cfg = cfg.effective
  accounted : Accounted t
  tracked : Tracked t s.history

variable {cfg : Config} {s s' : State} {t : Table}

theorem Followed.call (followed : Followed cfg s t) (op : Op) :
    Followed cfg (s.call t op) (t.apply op) :=
  ⟨rfl, (apply_cfg t op).trans followed.cfg, apply_accounted followed.accounted op,
    apply_tracked followed.tracked followed.accounted op⟩

theorem Followed.packet (followed : Followed cfg s t) (env : Env) (pi : PacketInfo) (size : Nat) :
    Followed cfg ⟨(evaluatePacket env pi size s.engine).2, historyAfter env pi t s.history⟩
      (tableAfter env pi t) := by
  have called := followed.call (trackOp env pi)
  have same := trackFlow_table env pi t
  have table : (evaluatePacket env pi size s.engine).2.conntrack = some (tableAfter env pi t) :=
    evaluatePacket_table followed.table
  unfold historyAfter
  unfold tableAfter at table ⊢
  cases traced : env.traceBytes with
  | error err =>
      rw [traced] at table
      exact ⟨table, followed.cfg, followed.accounted, followed.tracked⟩
  | ok bytes =>
      cases flow : (trackFlow env pi t).1 with
      | none =>
          rw [traced, flow] at table
          dsimp only at table ⊢
          rw [same] at table ⊢
          exact ⟨table, called.cfg, called.accounted, called.tracked⟩
      | some flow' =>
          have live := trackFlow_live flow
          rw [traced, flow] at table
          dsimp only at table ⊢
          unfold trackedTable trackPort at table ⊢
          rw [same] at table live ⊢
          split
          · next ports =>
            rw [if_pos ports] at table
            exact ⟨table, (recordDestPort_cfg _ _ _).trans called.cfg,
              recordDestPort_accounted called.accounted _ _,
              recordDestPort_tracked called.tracked _ _ live⟩
          · next plain =>
            rw [if_neg plain] at table
            exact ⟨table, called.cfg, called.accounted, called.tracked⟩

private theorem followed_step {a : Act} (followed : Followed cfg s t) (taken : next s a = some s') :
    ∃ t', Followed cfg s' t' := by
  unfold next at taken
  rw [followed.table] at taken
  obtain rfl := Option.some.inj taken
  cases a with
  | packet env pi size => exact ⟨_, followed.packet env pi size⟩
  | delete srcIP dstIP protocol srcPort dstPort => exact ⟨_, followed.call _⟩
  | expire o now => exact ⟨_, followed.call _⟩

private theorem reachable_followed (reached : (scanning cfg).Reachable Machine.any s) :
    ∃ t, Followed cfg s t := by
  refine reached.invariant (fun s => ∃ t, Followed cfg s t) ?_ ?_
  · rintro s ⟨table, empty⟩
    exact ⟨newTable cfg, table, rfl, newTable_accounted cfg, empty ▸ newTable_tracked cfg⟩
  · rintro s a s' - ⟨t, followed⟩ - taken
    exact followed_step followed taken

end Runs

section Rule

/-- The evaluation of the packet comes to ask the evaluator about an input. -/
def Judged (env : Env) (pi : PacketInfo) (size : Nat) (e : Engine) (input : Input) : Prop :=
  ∃ tid built e₁ e₂, (gather env pi size).Returns e (.built tid built) e₁ ∧
    listed e₁.threatIntel pi.srcIP = false ∧ (addCountries env pi built).Returns e₁ input e₂ ∧
    e₂.eval = true

variable {env : Env} {pi : PacketInfo} {size : Nat} {e : Engine} {input : Input} {t : Table}

private theorem gather_traced {gathered : Gathered} {e' : Engine}
    (returned : (gather env pi size).Returns e gathered e') :
    ∃ bytes, env.traceBytes = .ok bytes := by
  obtain ⟨_, _, -, returned⟩ := returns_bind.mp returned
  obtain ⟨_, _, named, -⟩ := returns_bind.mp returned
  cases traced : env.traceBytes with
  | ok bytes => exact ⟨bytes, rfl⟩
  | error err =>
      rw [newTraceID, traced] at named
      exact absurd named returns_fail

private theorem judged_input (table : e.conntrack = some t) (judged : Judged env pi size e input) :
    tableAfter env pi t = trackedTable env pi t ∧ input.packet.tcpFlags = pi.tcpFlags ∧
      input.connection.packetsInFlow = 1 ∧
      input.connection.recentPorts =
        if 0 < ((trackedTable env pi t).getRecentDestPorts pi.srcIP).length then
          some ((trackedTable env pi t).getRecentDestPorts pi.srcIP)
        else none := by
  obtain ⟨tid, built, e₁, e₂, gathered, -, added, -⟩ := judged
  obtain ⟨bytes, traced⟩ := gather_traced gathered
  obtain ⟨rfl, -⟩ := addCountries_result added
  rcases gather_cases gathered with ⟨refusal, refused, -⟩ | ⟨tid', t', flow, l, admitted, same, -⟩
  · exact absurd refused nofun
  · obtain rfl := Option.some.inj (admitted.table.symm.trans table)
    obtain ⟨-, rfl⟩ := Gathered.built.inj same
    refine ⟨?_, ?_⟩
    · unfold tableAfter
      rw [traced, admitted.tracked]
    · unfold policyInput
      split
      · exact ⟨rfl, rfl, rfl⟩
      · exact ⟨rfl, rfl, rfl⟩

end Rule

/-- Port scans. In every run of packets, deletions and expiries on a new table that can hold
20 ports of a source, the port lists belong to sources with live flows, have no duplicates
and stay within their limit; and for every packet with SYN and without ACK that is judged,
the shipped rule fires if and only if at least 20 distinct ports have been recorded of its
source, this packet's included, since that source last had no live flow. -/
theorem port_scan_exact (cfg : Config) (enough : 20 ≤ cfg.effective.portScanMaxPorts) (s : State)
    (reached : (scanning cfg).Reachable Machine.any s) :
    ∃ t, s.engine.conntrack = some t ∧
      (∀ src ports, t.srcPorts.lookup src = some ports →
        0 < flowsFrom t src ∧ ports.Nodup ∧ ports.length ≤ cfg.effective.portScanMaxPorts) ∧
      ∀ env pi size input s', pi.protocol = "TCP" → pi.tcpFlags.syn = true →
        pi.tcpFlags.ack = false → Judged env pi size s.engine input →
        next s (.packet env pi size) = some s' →
        ((deny_port_scan shipped input.document).holds = true ↔
          20 ≤ (s'.history (normalizeIP pi.srcIP)).toFinset.card) := by
  obtain ⟨t, followed⟩ := reachable_followed reached
  refine ⟨t, followed.table, fun src ports found => ?_, ?_⟩
  · have sampled := followed.tracked.sampled src
    rw [found, Option.getD_some, followed.cfg] at sampled
    refine ⟨?_, sampled.nodup, sampled.bounded⟩
    by_contra none_left
    have absent := (followed.tracked.gone src (by omega)).1
    exact absurd (absent.symm.trans found) nofun
  · intro env pi size input s' tcp syn ack judged taken
    obtain ⟨after, flags, first, recent⟩ := judged_input followed.table judged
    have followed' := followed.packet env pi size
    have state :
        s' = ⟨(evaluatePacket env pi size s.engine).2, historyAfter env pi t s.history⟩ := by
      unfold next at taken
      rw [followed.table] at taken
      exact (Option.some.inj taken).symm
    have sampled := followed'.tracked.sampled (normalizeIP pi.srcIP)
    rw [after] at sampled followed'
    have counted : 20 ≤ ((trackedTable env pi t).getRecentDestPorts pi.srcIP).length ↔
        20 ≤ (historyAfter env pi t s.history (normalizeIP pi.srcIP)).toFinset.card :=
      sampled.threshold_iff (by rw [followed'.cfg]; exact enough)
    have threshold : shipped.portScanThreshold ≤
          (((trackedTable env pi t).getRecentDestPorts pi.srcIP).length : ℚ) ↔
        20 ≤ ((trackedTable env pi t).getRecentDestPorts pi.srcIP).length :=
      Nat.ofNat_le_cast
    rw [deny_port_scan_iff recent (by decide), state, flags, syn, ack, threshold, counted]
    constructor
    · rintro ⟨-, -, -, -, fires⟩
      exact fires
    · intro fires
      exact ⟨rfl, first, rfl, rfl, fires⟩

section Example

def probe (n : Nat) : PacketInfo where
  srcMAC := ""
  dstMAC := ""
  srcIP := "10.0.0.9"
  dstIP := "10.0.0.1"
  protocol := "TCP"
  srcPort := 40000
  dstPort := UInt16.ofNat (8000 + n)
  tcpFlags := ⟨true, false, false, false⟩
  icmpType := none
  icmpCode := none
  fragment := .none
  packetSize := 40
  ipv6ExtHeaders := []

def noBuiltins : Builtins := ⟨fun _ _ => none, fun _ => none, fun _ => "", fun _ => ""⟩

/-- The packets come slowly, and the evaluator has no answer. -/
def probeEnv (n : Nat) : Env :=
  { quietEnv noBuiltins (2 * n * gap) with evaluate := fun _ => .returned none }

def probing (n : Nat) : Act := .packet (probeEnv n) (probe n) 40

def asks (env : Env) (pi : PacketInfo) (size : Nat) (e : Engine) : Bool :=
  match gather env pi size e with
  | (.ok (.built _ _), e) => !listed e.threatIntel pi.srcIP && !e.geoipReader && e.eval
  | _ => false

private theorem judged_of_asks {env : Env} {pi : PacketInfo} {size : Nat} {e : Engine}
    (asked : asks env pi size e = true) : ∃ input, Judged env pi size e input := by
  unfold asks at asked
  split at asked
  · next tid built e₁ gathered =>
      simp only [Bool.and_eq_true, Bool.not_eq_true'] at asked
      obtain ⟨⟨unlisted, bare⟩, evaluator⟩ := asked
      have plain : (addCountries env pi built).Returns e₁ built e₁ := by
        refine returns_bind.mpr ⟨e₁, e₁, returns_read.mpr ⟨rfl, rfl⟩, ?_⟩
        rw [if_neg (by simp [bare])]
        exact returns_pure.mpr ⟨rfl, rfl⟩
      exact ⟨built, tid, built, e₁, e₁, gathered, unlisted, plain, evaluator⟩
  · cases asked

/-- The packet is judged, and leaves this many ports of its source. -/
def leaves (s : State) (n ports : Nat) : Bool :=
  asks (probeEnv n) (probe n) 40 s.engine &&
    (next s (probing n)).any fun s' =>
      decide ((s'.history (normalizeIP (probe n).srcIP)).toFinset.card = ports)

private theorem leaves_judged {s : State} {n ports : Nat} (left : leaves s n ports = true) :
    ∃ input s', Judged (probeEnv n) (probe n) 40 s.engine input ∧ next s (probing n) = some s' ∧
      (s'.history (normalizeIP (probe n).srcIP)).toFinset.card = ports := by
  obtain ⟨asked, stepped⟩ := Bool.and_eq_true_iff.mp left
  obtain ⟨input, judged⟩ := judged_of_asks asked
  obtain ⟨s', taken, counted⟩ := (Option.any_eq_true _ _).mp stepped
  exact ⟨input, s', judged, taken, of_decide_eq_true counted⟩

theorem twentieth_port_is_scan : ∃ s s' input input',
    (scanning defaultConfig).run ⟨freshEngine, fun _ => []⟩ ((List.range 18).map probing) =
        some s ∧ next s (probing 18) = some s' ∧
      Judged (probeEnv 18) (probe 18) 40 s.engine input ∧
      ¬ (deny_port_scan shipped input.document).holds = true ∧
      Judged (probeEnv 19) (probe 19) 40 s'.engine input' ∧
      (deny_port_scan shipped input'.document).holds = true := by
  have scanned : (((scanning defaultConfig).run ⟨freshEngine, fun _ => []⟩
      ((List.range 18).map probing)).any fun s => leaves s 18 19 &&
        (next s (probing 18)).any fun s' => leaves s' 19 20) = true := by
    decide +kernel
  obtain ⟨s, ran, steps⟩ := (Option.any_eq_true _ _).mp scanned
  obtain ⟨first, more⟩ := Bool.and_eq_true_iff.mp steps
  obtain ⟨s', taken, second⟩ := (Option.any_eq_true _ _).mp more
  obtain ⟨input, t, judged, next_t, nineteen⟩ := leaves_judged first
  obtain ⟨input', t', judged', next_t', twenty⟩ := leaves_judged second
  have started : (scanning defaultConfig).Reachable Machine.any ⟨freshEngine, fun _ => []⟩ :=
    .init ⟨rfl, rfl⟩
  have reached := started.of_run _ ran
  have reached' := reached.step (a := probing 18) trivial taken
  obtain ⟨-, -, -, rule⟩ := port_scan_exact defaultConfig (by decide) s reached
  obtain ⟨-, -, -, rule'⟩ := port_scan_exact defaultConfig (by decide) s' reached'
  refine ⟨s, s', input, input', ran, taken, judged, ?_, judged', ?_⟩
  · rw [rule _ _ _ input t rfl rfl rfl judged next_t, nineteen]
    decide
  · rw [rule' _ _ _ input' t' rfl rfl rfl judged' next_t', twenty]

end Example

end L3Firewall.Pipeline.PortScan
