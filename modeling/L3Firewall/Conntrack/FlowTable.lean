/- Conntrack/FlowTable
   source: internal/conntrack/table.go
   digest: The connection table, its four companion maps and every operation on them. -/

import L3Firewall.Foundation.FiniteMap
import L3Firewall.Net.Address
import Mathlib.Data.Rat.Defs

set_option autoImplicit false
set_option relaxedAutoImplicit false

namespace L3Firewall.Conntrack.FlowTable

open Foundation.FiniteMap
open Net.Address (normalizeIP)

/-- Wall-clock readings, in nanoseconds since the Unix epoch. -/
abbrev Time := Nat

/-- Signed durations in nanoseconds. -/
abbrev Duration := Int

def second : Duration := 1000000000

def unix (t : Time) : Nat := t / 1000000000

inductive TCPState
  | synSent | synReceived | established | finWait1 | finWait2 | closing | timeWait | closeWait
  | closed
  deriving DecidableEq

def TCPState.String : TCPState → String
  | .synSent => "SYN_SENT"
  | .synReceived => "SYN_RECEIVED"
  | .established => "ESTABLISHED"
  | .finWait1 => "FIN_WAIT_1"
  | .finWait2 => "FIN_WAIT_2"
  | .closing => "CLOSING"
  | .timeWait => "TIME_WAIT"
  | .closeWait => "CLOSE_WAIT"
  | .closed => "CLOSED"

structure Config where
  maxEntries : Int
  maxFlowsPerSrcIP : Int
  idleTimeout : Duration
  udpTimeout : Duration
  icmpTimeout : Duration
  portScanMaxPorts : Int
  deriving DecidableEq

def defaultConfig : Config where
  maxEntries := 65536
  maxFlowsPerSrcIP := 0
  idleTimeout := 300 * second
  udpTimeout := 30 * second
  icmpTimeout := 5 * second
  portScanMaxPorts := 100

structure Stats where
  hits : Nat
  created : Nat
  expired : Nat
  evicted : Nat
  flowLimitExceeded : Nat
  deriving DecidableEq

structure Flow where
  srcIP : String
  dstIP : String
  protocol : String
  srcPort : UInt16
  dstPort : UInt16
  established : Bool
  tcpState : TCPState
  packets : Nat
  created : Time
  lastSeen : Time
  deriving DecidableEq

structure FlowKey where
  srcIP : String
  dstIP : String
  protocol : String
  srcPort : UInt16
  dstPort : UInt16
  deriving DecidableEq

/-- The key under which the methods look a 5-tuple up. -/
def flowKey (srcIP dstIP protocol : String) (srcPort dstPort : UInt16) : FlowKey :=
  ⟨normalizeIP srcIP, normalizeIP dstIP, protocol, srcPort, dstPort⟩

def Flow.key (f : Flow) : FlowKey := ⟨f.srcIP, f.dstIP, f.protocol, f.srcPort, f.dstPort⟩

def Flow.touch (f : Flow) (now : Time) : Flow :=
  { f with packets := f.packets + 1, lastSeen := now }

def connRateWindowSecs : Nat := 10

/-- One-second buckets, indexed by second modulo the window. -/
structure NewConnRate where
  secs : Fin connRateWindowSecs → Nat
  counts : Fin connRateWindowSecs → Nat

def NewConnRate.empty : NewConnRate := ⟨fun _ => 0, fun _ => 0⟩

def slot (sec : Nat) : Fin connRateWindowSecs :=
  ⟨sec % connRateWindowSecs, Nat.mod_lt _ (by decide)⟩

/-- Count one new connection. A slot that holds another second is overwritten. -/
def NewConnRate.record (r : NewConnRate) (now : Time) : NewConnRate :=
  let sec := unix now
  let i := slot sec
  let kept := if r.secs i = sec then r.counts i else 0
  ⟨Function.update r.secs i sec, Function.update r.counts i (kept + 1)⟩

/-- Sum of the buckets inside the window that ends at `now`. -/
def NewConnRate.windowSum (r : NewConnRate) (now : Time) : Nat :=
  ((List.finRange connRateWindowSecs).map fun i =>
    if r.secs i ≠ 0 ∧ unix now < r.secs i + connRateWindowSecs then r.counts i else 0).sum

def NewConnRate.rate (r : NewConnRate) (now : Time) : ℚ :=
  (r.windowSum now : ℚ) / connRateWindowSecs

/-- `srcPorts`, `newConns` and `srcFlowCount` are kept in step with `flows`. -/
structure Table where
  flows : FMap FlowKey Flow
  cfg : Config
  stats : Stats
  srcPorts : FMap String (List UInt16)
  newConns : FMap String NewConnRate
  srcFlowCount : FMap String Int

/-- Non-positive settings mean the default; the per-source limit has none. -/
def Config.effective (cfg : Config) : Config where
  maxEntries := if cfg.maxEntries ≤ 0 then 65536 else cfg.maxEntries
  maxFlowsPerSrcIP := cfg.maxFlowsPerSrcIP
  idleTimeout := if cfg.idleTimeout ≤ 0 then 300 * second else cfg.idleTimeout
  udpTimeout := if cfg.udpTimeout ≤ 0 then 30 * second else cfg.udpTimeout
  icmpTimeout := if cfg.icmpTimeout ≤ 0 then 5 * second else cfg.icmpTimeout
  portScanMaxPorts := if cfg.portScanMaxPorts ≤ 0 then 100 else cfg.portScanMaxPorts

def newTable (cfg : Config) : Table where
  flows := ∅
  cfg := cfg.effective
  stats := ⟨0, 0, 0, 0, 0⟩
  srcPorts := ∅
  newConns := ∅
  srcFlowCount := ∅

def Table.idleTimeoutFor (t : Table) (protocol : String) : Duration :=
  if protocol = "UDP" then t.cfg.udpTimeout
  else if protocol = "ICMP" then t.cfg.icmpTimeout
  else t.cfg.idleTimeout

structure Clock where
  created : Time
  lastSeen : Time
  record : Time

abbrev FlowOrder := RangeOrder ((_ : FlowKey) × Flow)

def Table.reachedFlowLimitLocked (t : Table) (srcIP : String) : Bool :=
  decide (0 < t.cfg.maxFlowsPerSrcIP ∧
    t.cfg.maxFlowsPerSrcIP ≤ (t.srcFlowCount.lookup srcIP).getD 0)

def Table.incrFlowCountLocked (t : Table) (srcIP : String) : Table :=
  { t with srcFlowCount := t.srcFlowCount.insert srcIP ((t.srcFlowCount.lookup srcIP).getD 0 + 1) }

/-- The entry, the port history and the rate history go with a source's last flow. -/
def Table.decrFlowCountLocked (t : Table) (srcIP : String) : Table :=
  let n := (t.srcFlowCount.lookup srcIP).getD 0 - 1
  if n ≤ 0 then
    { t with
      srcFlowCount := t.srcFlowCount.erase srcIP
      srcPorts := t.srcPorts.erase srcIP
      newConns := t.newConns.erase srcIP }
  else { t with srcFlowCount := t.srcFlowCount.insert srcIP n }

def Table.recordNewConn (t : Table) (srcIP : String) (now : Time) : Table :=
  let r := (t.newConns.lookup srcIP).getD NewConnRate.empty
  { t with newConns := t.newConns.insert srcIP (r.record now) }

/-- Removal of one stored flow, as Delete, Expire and eviction perform it. -/
def Table.removeLocked (t : Table) (key : FlowKey) : Table :=
  ({ t with flows := t.flows.erase key }).decrFlowCountLocked key.srcIP

theorem Table.removeLocked_eq (t : Table) (key : FlowKey) :
    let n := (t.srcFlowCount.lookup key.srcIP).getD 0 - 1
    t.removeLocked key =
      { t with
        flows := t.flows.erase key
        srcFlowCount := if n ≤ 0 then t.srcFlowCount.erase key.srcIP
          else t.srcFlowCount.insert key.srcIP n
        srcPorts := if n ≤ 0 then t.srcPorts.erase key.srcIP else t.srcPorts
        newConns := if n ≤ 0 then t.newConns.erase key.srcIP else t.newConns } := by
  intro n
  by_cases last : n ≤ 0
  · simp only [last, if_true]
    exact if_pos last
  · simp only [last, if_false]
    exact if_neg last

def evictionSampleSize : Nat := 16

def evictScan : List ((_ : FlowKey) × Flow) → Option (FlowKey × Time) → Option (FlowKey × Time)
  | [], best => best
  | ⟨key, f⟩ :: rest, none => evictScan rest (some (key, f.lastSeen))
  | ⟨key, f⟩ :: rest, some (oldestKey, oldestTime) =>
      if f.lastSeen < oldestTime then evictScan rest (some (key, f.lastSeen))
      else evictScan rest (some (oldestKey, oldestTime))

def Table.evictOneLocked (t : Table) (o : FlowOrder) : Table :=
  match evictScan ((range o t.flows).take evictionSampleSize) none with
  | none => t
  | some (oldestKey, _) => t.removeLocked oldestKey

def Table.evictIfFull (t : Table) (o : FlowOrder) : Table :=
  if t.cfg.maxEntries ≤ len t.flows then
    let t' := t.evictOneLocked o
    { t' with stats := { t'.stats with evicted := t'.stats.evicted + 1 } }
  else t

/-- A flow object for a 5-tuple that is not tracked yet. The zero value of the state
field is SYN_SENT. -/
def freshFlow (key : FlowKey) (clock : Clock) : Flow where
  srcIP := key.srcIP
  dstIP := key.dstIP
  protocol := key.protocol
  srcPort := key.srcPort
  dstPort := key.dstPort
  established := false
  tcpState := .synSent
  packets := 1
  created := clock.created
  lastSeen := clock.lastSeen

/-- Both creation paths run these statements in this order. -/
def Table.createLocked (t : Table) (o : FlowOrder) (clock : Clock) (key : FlowKey) (f : Flow) :
    Table :=
  let t := t.evictIfFull o
  let t := { t with
    flows := t.flows.insert key f
    stats := { t.stats with created := t.stats.created + 1 } }
  (t.incrFlowCountLocked key.srcIP).recordNewConn key.srcIP clock.record

def Table.storeFlow (t : Table) (key : FlowKey) (f : Flow) : Table :=
  { t with flows := t.flows.insert key f }

def Table.hit (t : Table) : Table :=
  { t with stats := { t.stats with hits := t.stats.hits + 1 } }

def Table.refuse (t : Table) : Table :=
  { t with stats := { t.stats with flowLimitExceeded := t.stats.flowLimitExceeded + 1 } }

/-- `none` is the nil flow of a source at its limit. -/
def Table.lookupOrCreate (t : Table) (o : FlowOrder) (clock : Clock)
    (srcIP dstIP protocol : String) (srcPort dstPort : UInt16) : Option Flow × Table :=
  let key := flowKey srcIP dstIP protocol srcPort dstPort
  match t.flows.lookup key with
  | some f =>
      let f := f.touch clock.lastSeen
      (some f, (t.storeFlow key f).hit)
  | none =>
      if t.reachedFlowLimitLocked key.srcIP then (none, t.refuse)
      else
        let f := freshFlow key clock
        (some f, t.createLocked o clock key f)

structure Flags where
  syn : Bool
  ack : Bool
  rst : Bool
  fin : Bool
  deriving DecidableEq

/-- The state and the Established field of a flow, which the flag switch writes. -/
structure Phase where
  tcpState : TCPState
  established : Bool
  deriving DecidableEq

def finAck (p : Phase) : Phase :=
  match p.tcpState with
  | .synSent | .synReceived => { p with tcpState := .finWait1 }
  | .established => { p with tcpState := .finWait1 }
  | .finWait1 => { p with tcpState := .finWait2 }
  | .finWait2 => { p with tcpState := .timeWait }
  | .closeWait => ⟨.closed, false⟩
  | _ => p

def plainFin (p : Phase) : Phase :=
  match p.tcpState with
  | .established => { p with tcpState := .finWait1 }
  | .finWait1 => { p with tcpState := .closing }
  | _ => p

def pureAck (p : Phase) : Phase :=
  match p.tcpState with
  | .synSent => ⟨.established, true⟩
  | .finWait1 => { p with tcpState := .finWait2 }
  | .closing => { p with tcpState := .timeWait }
  | .timeWait => ⟨.closed, false⟩
  | _ => p

/-- The flag switch of UpdateTCPState, first matching case. -/
def tcpSwitch (g : Flags) (p : Phase) : Phase :=
  if g.rst then ⟨.closed, false⟩
  else if g.syn && g.ack && !g.fin then
    if p.tcpState = .synSent then ⟨.established, true⟩ else p
  else if g.syn && !g.ack && !g.fin then
    if p.tcpState = .synSent then { p with tcpState := .synReceived } else p
  else if g.fin && g.ack then finAck p
  else if g.fin && !g.ack then plainFin p
  else if g.ack && !g.syn && !g.fin && !g.rst then pureAck p
  else p

/-- The statement after the switch: a new flow that no SYN, RST or FIN opened. -/
def newFlowOverride (isNew : Bool) (protocol : String) (g : Flags) (p : Phase) : Phase :=
  if isNew && decide (protocol = "TCP") && !g.syn && !g.rst && !g.fin then
    { p with tcpState := .synReceived }
  else p

def Flow.phase (f : Flow) : Phase := ⟨f.tcpState, f.established⟩

def Flow.setPhase (f : Flow) (p : Phase) : Flow :=
  { f with tcpState := p.tcpState, established := p.established }

def Table.updateTCPState (t : Table) (o : FlowOrder) (clock : Clock)
    (srcIP dstIP protocol : String) (srcPort dstPort : UInt16) (g : Flags) :
    Option Flow × Table :=
  let key := flowKey srcIP dstIP protocol srcPort dstPort
  match t.flows.lookup key with
  | some f =>
      let f := f.touch clock.lastSeen
      let f' := f.setPhase (newFlowOverride false protocol g (tcpSwitch g f.phase))
      (some f', (t.storeFlow key f').hit)
  | none =>
      if t.reachedFlowLimitLocked key.srcIP then (none, t.refuse)
      else
        let f := freshFlow key clock
        let f' := f.setPhase (newFlowOverride true protocol g (tcpSwitch g f.phase))
        -- The map holds a pointer to the flow, so the switch writes the stored one.
        (some f', (t.createLocked o clock key f).storeFlow key f')

/-- What the two calls above do alike for a key: they find its flow, refuse to make one, or
make one. `phase` is the phase they leave, given whether the flow is new and its phase. -/
inductive Looked (t : Table) (o : FlowOrder) (clock : Clock) (key : FlowKey)
    (phase : Bool → Phase → Phase) : Option Flow × Table → Prop
  | hit {f f' : Flow} (found : t.flows.lookup key = some f)
      (updated : f' = (f.touch clock.lastSeen).setPhase (phase false f.phase)) :
      Looked t o clock key phase (some f', (t.storeFlow key f').hit)
  | refused (absent : t.flows.lookup key = none)
      (limited : t.reachedFlowLimitLocked key.srcIP = true) :
      Looked t o clock key phase (none, t.refuse)
  | created {f : Flow} (absent : t.flows.lookup key = none)
      (below : t.reachedFlowLimitLocked key.srcIP = false)
      (made : f = (freshFlow key clock).setPhase (phase true (freshFlow key clock).phase)) :
      Looked t o clock key phase (some f, t.createLocked o clock key f)

private theorem createLocked_storeFlow (t : Table) (o : FlowOrder) (clock : Clock) (key : FlowKey)
    (f f' : Flow) :
    (t.createLocked o clock key f).storeFlow key f' = t.createLocked o clock key f' := by
  simp only [Table.storeFlow, Table.createLocked, Table.incrFlowCountLocked, Table.recordNewConn,
    AList.insert_insert]

theorem lookupOrCreate_looked (t : Table) (o : FlowOrder) (clock : Clock)
    (srcIP dstIP protocol : String) (srcPort dstPort : UInt16) :
    Looked t o clock (flowKey srcIP dstIP protocol srcPort dstPort) (fun _ p => p)
      (t.lookupOrCreate o clock srcIP dstIP protocol srcPort dstPort) := by
  unfold Table.lookupOrCreate
  dsimp only
  split
  · next f found => exact .hit found rfl
  · next absent =>
    split
    · next limited => exact .refused absent limited
    · next below => exact .created absent (Bool.eq_false_iff.mpr below) rfl

theorem updateTCPState_looked (t : Table) (o : FlowOrder) (clock : Clock)
    (srcIP dstIP protocol : String) (srcPort dstPort : UInt16) (g : Flags) :
    Looked t o clock (flowKey srcIP dstIP protocol srcPort dstPort)
      (fun isNew p => newFlowOverride isNew protocol g (tcpSwitch g p))
      (t.updateTCPState o clock srcIP dstIP protocol srcPort dstPort g) := by
  unfold Table.updateTCPState
  dsimp only
  split
  · next f found => exact .hit found rfl
  · next absent =>
    split
    · next limited => exact .refused absent limited
    · next below =>
      rw [createLocked_storeFlow]
      exact .created absent (Bool.eq_false_iff.mpr below) rfl

def Table.delete (t : Table) (srcIP dstIP protocol : String) (srcPort dstPort : UInt16) : Table :=
  let key := flowKey srcIP dstIP protocol srcPort dstPort
  if key ∈ t.flows then t.removeLocked key else t

/-- Keys of the flows idle for longer than their protocol's timeout. -/
def Table.expiredKeys (t : Table) (o : FlowOrder) (now : Time) : List FlowKey :=
  ((range o t.flows).filter fun e =>
    decide (t.idleTimeoutFor e.2.protocol < (now : Int) - e.2.lastSeen)).map Sigma.fst

def Table.expire (t : Table) (o : FlowOrder) (now : Time) : Table :=
  let expired := t.expiredKeys o now
  let t' := expired.foldl Table.removeLocked t
  { t' with stats := { t'.stats with expired := t'.stats.expired + expired.length } }

def Table.recordDestPort (t : Table) (srcIP : String) (dstPort : UInt16) : Table :=
  let srcIP := normalizeIP srcIP
  let ports := (t.srcPorts.lookup srcIP).getD []
  if dstPort ∈ ports then t
  else if t.cfg.portScanMaxPorts ≤ ports.length then t
  else { t with srcPorts := t.srcPorts.insert srcIP (ports ++ [dstPort]) }

theorem recordDestPort_frame (t : Table) (srcIP : String) (dstPort : UInt16) :
    ∃ ports, t.recordDestPort srcIP dstPort = { t with srcPorts := ports } := by
  unfold Table.recordDestPort
  dsimp only
  split
  · exact ⟨_, rfl⟩
  · split
    · exact ⟨_, rfl⟩
    · exact ⟨_, rfl⟩

theorem recordDestPort_cfg (t : Table) (srcIP : String) (dstPort : UInt16) :
    (t.recordDestPort srcIP dstPort).cfg = t.cfg := by
  obtain ⟨ports, same⟩ := recordDestPort_frame t srcIP dstPort
  rw [same]

def Table.getRecentDestPorts (t : Table) (srcIP : String) : List UInt16 :=
  (t.srcPorts.lookup (normalizeIP srcIP)).getD []

def Table.newConnectionRate (t : Table) (srcIP : String) (now : Time) : ℚ :=
  match t.newConns.lookup (normalizeIP srcIP) with
  | none => 0
  | some r => r.rate now

/-- One call of a mutating method, with its clock readings and iteration order. -/
inductive Op
  | lookupOrCreate (o : FlowOrder) (clock : Clock) (srcIP dstIP protocol : String)
      (srcPort dstPort : UInt16)
  | updateTCPState (o : FlowOrder) (clock : Clock) (srcIP dstIP protocol : String)
      (srcPort dstPort : UInt16) (g : Flags)
  | delete (srcIP dstIP protocol : String) (srcPort dstPort : UInt16)
  | expire (o : FlowOrder) (now : Time)

def Table.apply (t : Table) : Op → Table
  | .lookupOrCreate o clock srcIP dstIP protocol srcPort dstPort =>
      (t.lookupOrCreate o clock srcIP dstIP protocol srcPort dstPort).2
  | .updateTCPState o clock srcIP dstIP protocol srcPort dstPort g =>
      (t.updateTCPState o clock srcIP dstIP protocol srcPort dstPort g).2
  | .delete srcIP dstIP protocol srcPort dstPort =>
      t.delete srcIP dstIP protocol srcPort dstPort
  | .expire o now => t.expire o now

def Table.run (t : Table) (ops : List Op) : Table := ops.foldl Table.apply t

/-- Unlike its siblings this reader does not normalise its argument. -/
def Table.getSrcFlowCount (t : Table) (srcIP : String) : Int :=
  (t.srcFlowCount.lookup srcIP).getD 0

end L3Firewall.Conntrack.FlowTable
