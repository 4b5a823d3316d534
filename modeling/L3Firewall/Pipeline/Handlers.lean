/- Pipeline/Handlers
   source: internal/engine/engine.go
   digest: The evaluation of one packet, from the queue hook to the verdict. -/

import L3Firewall.L2filter.MacLists
import L3Firewall.Opa.Evaluator
import L3Firewall.Ratelimit.Buckets
import L3Firewall.Threatintel.Lookup

set_option autoImplicit false
set_option relaxedAutoImplicit false

namespace L3Firewall.Pipeline.Handlers

open Foundation.FiniteMap
open Foundation.Recover (Reply Action)
open Foundation.Recover.Action (fail read update recover focus)
open Conntrack.FlowTable (Time Table Flow FlowOrder Clock Flags)
open Ratelimit.Buckets (Limiter BucketOrder)
open L2filter.MacLists (Filter)
open Threatintel.Lookup (Blocklist)
open Packet.Parser (Bytes Decoder PacketInfo ParsePacket)
open Opa.Document (Input BuildInput)
open Opa.Evaluator (Text text Result)

def maxRecentBlocks : Nat := 100

def maxBlockStatsReasons : Nat := 256

def maxReasonLength : Nat := 1024

structure BlockLogEntry where
  timestamp : Time
  srcIP : String
  dstIP : String
  protocol : String
  srcPort : UInt16
  dstPort : UInt16
  reason : Text
  packetSize : Nat
  traceID : String
  deriving DecidableEq

inductive EventType
  | packetBlock | packetAllow | auditBlock
  deriving DecidableEq

structure AuditEvent where
  timestamp : Time
  type : EventType
  traceID : String
  srcIP : String
  dstIP : String
  protocol : String
  srcPort : UInt16
  dstPort : UInt16
  packetSize : Nat
  reason : Text
  deriving DecidableEq

inductive AlertType
  | connLimit | opaError
  deriving DecidableEq

/-- What the engine hands to the audit logger, the alert router and the capture writer. The second
time of an alert is what the clock shows when the router has it. -/
inductive Call
  | log (event : AuditEvent)
  | send (type : AlertType) (message : Text) (timestamp now : Time)
  | writeBlock (raw : Bytes)
  deriving DecidableEq

/-- A component that is `none` or false is nil. The evaluator, the audit logger, the alert
router, the country database and the capture writer act through the environment. The source has
no `outbox`: it lists the calls that were made, in order. -/
structure Engine where
  eval : Bool
  conntrack : Option Table
  ratelimit : Option Limiter
  auditOnly : Bool
  failClosed : Bool
  auditLogger : Bool
  alertRouter : Bool
  geoipReader : Bool
  threatIntel : Option Blocklist
  pcapWriter : Bool
  l2Filter : Option Filter
  packetsProcessed : Int
  packetsAllowed : Int
  packetsBlocked : Int
  blockStats : FMap Text Int
  recentBlocks : List BlockLogEntry
  outbox : List Call

def new (eval : Bool) (ct : Option Table) (rl : Option Limiter) (failClosed auditOnly : Bool)
    (al ar gr : Bool) (ti : Option Blocklist) (pw : Bool) (l2 : Option Filter) : Engine where
  eval := eval
  conntrack := ct
  ratelimit := rl
  auditOnly := auditOnly
  failClosed := failClosed
  auditLogger := al
  alertRouter := ar
  geoipReader := gr
  threatIntel := ti
  pcapWriter := pw
  l2Filter := l2
  packetsProcessed := 0
  packetsAllowed := 0
  packetsBlocked := 0
  blockStats := ∅
  recentBlocks := []
  outbox := []

inductive Verdict
  | nfDrop | nfAccept
  deriving DecidableEq

/-- What the surroundings do while one packet is handled: random bytes, clock readings,
iteration orders of maps, and the replies of the components outside. -/
structure Env where
  traceBytes : Except String (List UInt8)
  flowOrder : FlowOrder
  flowClock : Clock
  rateOrder : BucketOrder
  rateTime : Time
  portOrder : BucketOrder
  portTime : Time
  connRateTime : Time
  inputTime : Time
  blockTime : Time
  auditTime : Time
  alertTime : Time
  sendTime : Time
  lookupCountry : String → Except String String
  evaluate : Input → Reply (Option Result)
  auditLog : AuditEvent → Reply Unit
  alert : AlertType → Text → Except String Unit
  writeBlock : Bytes → Reply Unit
  setVerdict : UInt32 → Verdict → Reply Unit

section Steps

def attempt {α : Type} (call : Except String α) : Action Engine α :=
  match call with
  | .ok a => return a
  | .error value => fail value

def nilPointer : String := "runtime error: invalid memory address or nil pointer dereference"

/-- A component through a pointer that may be nil. -/
def deref {α : Type} (component : Option α) : Action Engine α :=
  match component with
  | some a => return a
  | none => fail nilPointer

def hexDigits (b : UInt8) : List Char :=
  [Nat.digitChar (b.toNat / 16), Nat.digitChar (b.toNat % 16)]

def newTraceID (env : Env) : Action Engine String :=
  match env.traceBytes with
  | .ok bytes => return String.ofList (bytes.flatMap hexDigits)
  | .error err => fail ("crypto/rand: " ++ err)

def truncate (reason : Text) : Text := reason.take maxReasonLength

def appendRecent (recent : List BlockLogEntry) (entry : BlockLogEntry) : List BlockLogEntry :=
  (if maxRecentBlocks ≤ recent.length then recent.drop 1 else recent) ++ [entry]

/-- At the cap no reason is counted any more, known or not. -/
def countReason (stats : FMap Text Int) (reason : Text) : FMap Text Int :=
  if len stats < maxBlockStatsReasons then
    stats.insert reason ((stats.lookup reason).getD 0 + 1)
  else stats

def Engine.recordBlock (e : Engine) (now : Time) (pi : PacketInfo) (reason : Text)
    (traceID : String) : Engine :=
  let reason := truncate reason
  let entry : BlockLogEntry :=
    { timestamp := now
      srcIP := pi.srcIP
      dstIP := pi.dstIP
      protocol := pi.protocol
      srcPort := pi.srcPort
      dstPort := pi.dstPort
      reason := reason
      packetSize := pi.packetSize
      traceID := traceID }
  { e with
    recentBlocks := appendRecent e.recentBlocks entry
    blockStats := countReason e.blockStats reason }

def Engine.handed (e : Engine) (calls : List Call) : Engine :=
  { e with outbox := e.outbox ++ calls }

/-- An error of the logger is only reported. -/
def logAudit (env : Env) (type : EventType) (traceID : String) (pi : PacketInfo) (reason : Text) :
    Action Engine Unit := do
  let e ← read
  if e.auditLogger then do
    let event : AuditEvent :=
      { timestamp := env.auditTime
        type := type
        traceID := traceID
        srcIP := pi.srcIP
        dstIP := pi.dstIP
        protocol := pi.protocol
        srcPort := pi.srcPort
        dstPort := pi.dstPort
        packetSize := pi.packetSize
        reason := reason }
    update fun e => e.handed [.log event]
    match env.auditLog event with
    | .returned _ | .failed _ => return ()
    | .panicked value => fail value
  else return ()

def fireAlert (env : Env) (type : AlertType) (message : Text) : Action Engine Unit := do
  let e ← read
  if e.alertRouter then do
    update fun e => e.handed [.send type message env.alertTime env.sendTime]
    attempt (env.alert type message)
  else return ()

def Engine.countProcessed (e : Engine) : Engine :=
  { e with packetsProcessed := e.packetsProcessed + 1 }

def Engine.countAllowed (e : Engine) : Engine := { e with packetsAllowed := e.packetsAllowed + 1 }

def Engine.countBlocked (e : Engine) : Engine := { e with packetsBlocked := e.packetsBlocked + 1 }

def block (env : Env) (pi : PacketInfo) (tid : String) (reason : Text) : Action Engine Result := do
  update Engine.countBlocked
  update fun e => e.recordBlock env.blockTime pi reason tid
  logAudit env .packetBlock tid pi reason
  return ⟨false, reason⟩

def blockAndAlert (env : Env) (pi : PacketInfo) (tid : String) (reason : Text) (type : AlertType)
    (message : Text) : Action Engine Result := do
  let result ← block env pi tid reason
  fireAlert env type message
  return result

def accept (env : Env) (pi : PacketInfo) (tid : String) (type : EventType) (reason : Text)
    (result : Result) : Action Engine Result := do
  update Engine.countAllowed
  logAudit env type tid pi reason
  return result

end Steps

section Gather

/-- Flags of the packet, as UpdateTCPState takes them. -/
def flags (pi : PacketInfo) : Flags :=
  ⟨pi.tcpFlags.syn, pi.tcpFlags.ack, pi.tcpFlags.rst, pi.tcpFlags.fin⟩

/-- Connection tracking; no flow means that the source is at its limit. -/
def trackFlow (env : Env) (pi : PacketInfo) (t : Table) : Option Flow × Table :=
  if pi.protocol = "TCP" then
    t.updateTCPState env.flowOrder env.flowClock pi.srcIP pi.dstIP pi.protocol pi.srcPort
      pi.dstPort (flags pi)
  else
    t.lookupOrCreate env.flowOrder env.flowClock pi.srcIP pi.dstIP pi.protocol pi.srcPort
      pi.dstPort

/-- Only packets with ports count for the detection of scans. -/
def trackPort (pi : PacketInfo) (t : Table) : Table :=
  if pi.protocol = "TCP" ∨ pi.protocol = "UDP" then t.recordDestPort pi.srcIP pi.dstPort else t

/-- The table once a packet that has a flow is tracked. -/
def trackedTable (env : Env) (pi : PacketInfo) (t : Table) : Table :=
  trackPort pi (trackFlow env pi t).2

structure Rates where
  pps : ℚ
  bps : ℚ
  portPPS : ℚ
  portBPS : ℚ
  deriving DecidableEq

def trackRates (env : Env) (pi : PacketInfo) (packetSize : Nat) (l : Limiter) : Rates × Limiter :=
  let ((pps, bps), l) := l.Allow env.rateOrder pi.srcIP packetSize env.rateTime
  let ((portPPS, portBPS), l) :=
    l.AllowPort env.portOrder pi.srcIP pi.dstPort packetSize env.portTime
  (⟨pps, bps, portPPS, portBPS⟩, l)

/-- The limits are asked after both buckets have counted the packet. -/
def exceeds (tracked : Rates × Limiter) : Bool :=
  tracked.2.ExceedsLimit tracked.1.pps tracked.1.bps

def roundHalfEven (q : ℚ) : Int :=
  let below := q.floor
  let rest := q - below
  if rest < 1 / 2 then below
  else if 1 / 2 < rest then below + 1
  else if below % 2 = 0 then below
  else below + 1

def rateLimitReason (r : Rates) : Text :=
  text ("per-IP rate limit exceeded: " ++ toString (roundHalfEven r.pps) ++ " pps / " ++
    toString (roundHalfEven r.bps) ++ " bps")

/-- The flow is read after the packet has changed it. -/
def builtInput (env : Env) (pi : PacketInfo) (flow : Flow) (r : Rates) (t : Table) : Input :=
  BuildInput pi r.pps r.bps flow.established
    (if pi.protocol = "TCP" then flow.tcpState.String else "")
    r.portPPS r.portBPS (t.newConnectionRate pi.srcIP env.connRateTime)
    (t.getRecentDestPorts pi.srcIP) env.inputTime

/-- The packet was refused on the way, or its input is built. -/
inductive Gathered
  | refused (result : Result)
  | built (tid : String) (input : Input)

def connLimitReason : String := "connection limit exceeded for source IP"

def gatherRates (env : Env) (pi : PacketInfo) (packetSize : Nat) (tid : String) (flow : Flow) :
    Action Engine Gathered := do
  let e ← read
  let l ← deref e.ratelimit
  update fun e => { e with ratelimit := some (trackRates env pi packetSize l).2 }
  if exceeds (trackRates env pi packetSize l) then do
    let result ← block env pi tid (rateLimitReason (trackRates env pi packetSize l).1)
    return .refused result
  else do
    let t ← deref e.conntrack
    return .built tid (builtInput env pi flow (trackRates env pi packetSize l).1 t)

/-- The check of the source MAC address, when there is a filter. -/
def macRefusal (l2Filter : Option Filter) (srcMAC : String) : Option String :=
  match l2Filter with
  | none => none
  | some f => if (f.MACAllowed srcMAC).1 then none else some (f.MACAllowed srcMAC).2

/-- Everything before the input of the policy is built. -/
def gather (env : Env) (pi : PacketInfo) (packetSize : Nat) : Action Engine Gathered := do
  update Engine.countProcessed
  let tid ← newTraceID env
  let e ← read
  let t ← deref e.conntrack
  update fun e => { e with conntrack := some (trackFlow env pi t).2 }
  match (trackFlow env pi t).1 with
  | none => do
      let result ← blockAndAlert env pi tid (text connLimitReason) .connLimit
        (text (connLimitReason ++ " src=" ++ pi.srcIP))
      return .refused result
  | some flow => do
      update fun e => { e with conntrack := some (trackedTable env pi t) }
      match macRefusal e.l2Filter pi.srcMAC with
      | some reason => do
          let result ← block env pi tid (text reason)
          return .refused result
      | none => gatherRates env pi packetSize tid flow

end Gather

section Judge

def judge (env : Env) (pi : PacketInfo) (tid : String) (input : Input) : Action Engine Result := do
  let e ← read
  if e.eval then
    match env.evaluate input with
    | .panicked value => fail value
    | .failed err =>
        let reason := text ("OPA error: " ++ err ++ " — blocked for safety")
        blockAndAlert env pi tid reason .opaError reason
    | .returned none => fail nilPointer
    | .returned (some result) =>
        if !result.allowed && e.auditOnly then
          accept env pi tid .auditBlock result.reason ⟨true, []⟩
        else if result.allowed then accept env pi tid .packetAllow [] result
        else block env pi tid (truncate result.reason)
  else if e.failClosed then
    block env pi tid (text "evaluator unavailable — blocked for safety")
  else accept env pi tid .packetAllow [] ⟨true, []⟩

def listed (threatIntel : Option Blocklist) (srcIP : String) : Bool :=
  match threatIntel with
  | none => false
  | some bl => bl.Contains srcIP

def addCountries (env : Env) (pi : PacketInfo) (input : Input) : Action Engine Input := do
  let e ← read
  if e.geoipReader then do
    let src ← attempt (env.lookupCountry pi.srcIP)
    let dst ← attempt (env.lookupCountry pi.dstIP)
    return { input with geo := ⟨src, dst⟩ }
  else return input

def conclude (env : Env) (pi : PacketInfo) (tid : String) (input : Input) :
    Action Engine Result := do
  let e ← read
  if listed e.threatIntel pi.srcIP then
    block env pi tid (text "source IP in threat intelligence blocklist")
  else do
    let input ← addCountries env pi input
    judge env pi tid input

end Judge

section Handlers

/-- The statements of evaluatePacket, without its deferred function. -/
def evaluateBody (env : Env) (pi : PacketInfo) (packetSize : Nat) : Action Engine Result := do
  let gathered ← gather env pi packetSize
  match gathered with
  | .refused result => return result
  | .built tid input => conclude env pi tid input

def evaluatePacket (env : Env) (pi : PacketInfo) (packetSize : Nat) : Action Engine Result :=
  recover (evaluateBody env pi packetSize) fun value => do
    update fun e => e.countProcessed.countBlocked
    return ⟨false, text ("internal error: " ++ value)⟩

/-- An error of the capture writer is only reported. -/
def capture (env : Env) (raw : Bytes) : Action Engine Unit := do
  let e ← read
  if e.pcapWriter then do
    update fun e => e.handed [.writeBlock raw]
    match env.writeBlock raw with
    | .returned _ | .failed _ => return ()
    | .panicked value => fail value
  else return ()

/-- The statements of packetHandler, without its deferred function. -/
def handleBody (d : Decoder) (env : Env) (payload : Option Bytes) : Action Engine Nat :=
  match payload with
  | none => do
      update fun e => e.countProcessed.countBlocked
      return 1
  | some raw =>
      match ParsePacket d raw with
      | .error _ => do
          update fun e => e.countProcessed.countBlocked
          return 1
      | .ok pi => do
          let result ← evaluatePacket env pi raw.length
          if result.allowed then return 0
          else do
            capture env raw
            return 1

def packetHandler (d : Decoder) (env : Env) (payload : Option Bytes) : Action Engine Nat :=
  recover (handleBody d env payload) fun _ => do
    -- The source counts the packet as allowed here, although it drops it.
    update fun e => e.countProcessed.countAllowed
    return 1

/-- The decisions on packets that are handled one after the other, each in its own
surroundings, and the engine after the last of them. -/
def handleAll (d : Decoder) : List (Env × Option Bytes) → Engine → List (Except String Nat) × Engine
  | [], e => ([], e)
  | (env, payload) :: rest, e =>
      let handled := packetHandler d env payload e
      let later := handleAll d rest handled.2
      (handled.1 :: later.1, later.2)

def decisions (d : Decoder) (run : List (Env × Bytes)) (e : Engine) : List (Except String Nat) :=
  (handleAll d (run.map fun packet => (packet.1, some packet.2)) e).1

theorem decisions_cons (d : Decoder) (env : Env) (raw : Bytes) (rest : List (Env × Bytes))
    (e : Engine) : decisions d ((env, raw) :: rest) e =
      (packetHandler d env (some raw) e).1 ::
        decisions d rest (packetHandler d env (some raw) e).2 :=
  rfl

structure Attribute where
  packetID : Option UInt32
  payload : Option Bytes

/-- The engine and the verdicts handed to the kernel so far. -/
structure Queue where
  engine : Engine
  verdicts : List (UInt32 × Verdict)

/-- The call counts whatever comes of it. -/
def setVerdict (env : Env) (id : UInt32) (verdict : Verdict) : Action Queue Nat := do
  update fun q => { q with verdicts := q.verdicts ++ [(id, verdict)] }
  match env.setVerdict id verdict with
  | .returned _ => return 0
  | .failed _ => return 1
  | .panicked value => fail value

def handleQueuePacket (d : Decoder) (env : Env) (attr : Attribute) : Action Queue Nat :=
  match attr.packetID with
  | none => return 1
  | some id => do
      let decision ← focus Queue.engine (fun q e => { q with engine := e })
        (packetHandler d env attr.payload)
      setVerdict env id (if decision ≠ 0 then .nfDrop else .nfAccept)

end Handlers

end L3Firewall.Pipeline.Handlers
