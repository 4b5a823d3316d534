/- Pipeline/Resets
   source: internal/engine/engine.go, internal/conntrack/table.go, opa-policies/l3.rego
   digest: A reset is judged by the flow that it has just closed. -/

import L3Firewall.Pipeline.Evasion

set_option autoImplicit false
set_option relaxedAutoImplicit false

namespace L3Firewall.Pipeline.Resets

open Foundation.Recover.Action
open Conntrack.FlowTable
open Ratelimit.Buckets (newLimiter)
open Ratelimit.Spacing (Spaced newLimiter_spaced)
open Packet.Parser
open Opa.Document (Input)
open Opa.Policy (shipped deny_state_violation)
open Opa.Decision (Denied)
open Opa.Denials
open Opa.Evaluator (evaluate_decisionQuery)
open Handlers
open FailClosed
open Quiet
open Evasion (everywhere)

variable {env : Env} {pi : PacketInfo} {size : Nat} {e e' : Engine} {tid : String} {i : Input}

/-- A TCP reset, without SYN and FIN, whose own flow is established before it comes. -/
structure EstablishedReset (e : Engine) (pi : PacketInfo) : Prop where
  protocol : pi.protocol = "TCP"
  rst : pi.tcpFlags.rst = true
  syn : pi.tcpFlags.syn = false
  fin : pi.tcpFlags.fin = false
  tracked : ∃ t f, e.conntrack = some t ∧
    t.flows.lookup (flowKey pi.srcIP pi.dstIP pi.protocol pi.srcPort pi.dstPort) = some f ∧
    f.established = true

private theorem updateTCPState_reset {t : Table} {o : FlowOrder} {clock : Clock}
    {srcIP dstIP protocol : String} {srcPort dstPort : UInt16} {g : Flags} {flow : Flow}
    (rst : g.rst = true)
    (returned : (t.updateTCPState o clock srcIP dstIP protocol srcPort dstPort g).1 = some flow) :
    flow.established = false := by
  have closed (isNew : Bool) (p : Phase) :
      (newFlowOverride isNew protocol g (tcpSwitch g p)).established = false := by
    simp [newFlowOverride, tcpSwitch, rst]
  have looked := updateTCPState_looked t o clock srcIP dstIP protocol srcPort dstPort g
  generalize t.updateTCPState o clock srcIP dstIP protocol srcPort dstPort g = r at looked returned
  cases looked with
  | hit found updated =>
      rw [← Option.some.inj returned, updated]
      exact closed false _
  | refused absent limited => exact absurd returned nofun
  | created absent below made =>
      rw [← Option.some.inj returned, made]
      exact closed true _

private theorem built_reset_violates (protocol : pi.protocol = "TCP") (rst : pi.tcpFlags.rst = true)
    (built : (gather env pi size).Returns e (.built tid i) e') :
    i.connection.established = false ∧ (deny_state_violation shipped i.document).holds = true := by
  obtain ⟨refusal, refused, -⟩ | ⟨tid', t, flow, l, admitted, same, -⟩ := gather_cases built
  · exact absurd refused nofun
  · obtain ⟨-, rfl⟩ := Gathered.built.inj same
    have tracked := admitted.tracked
    rw [trackFlow, if_pos protocol] at tracked
    have closed : flow.established = false := updateTCPState_reset rst tracked
    exact ⟨closed, deny_state_violation_iff.mpr ⟨rfl, protocol, rst, closed⟩⟩

/-- Whenever the input of a reset on an established flow is built, it says that the flow is
not established, and the rule on resets to flows that do not exist denies it. -/
theorem reset_on_established_violates (reset : EstablishedReset e pi)
    (built : (gather env pi size).Returns e (.built tid i) e') :
    i.connection.established = false ∧ (deny_state_violation shipped i.document).holds = true :=
  built_reset_violates reset.protocol reset.rst built

section Example

/-- SYN and ACK from port 443 of 10.0.2.50 to port 44001 of 10.0.1.100. -/
def synAck : Bytes :=
  [0x45, 0, 0, 40, 0, 1, 0, 0, 64, 6, 0, 0, 10, 0, 2, 50, 10, 0, 1, 100,
    0x01, 0xBB, 0xAB, 0xE1, 0, 0, 0, 1, 0, 0, 0, 1, 0x50, 0x12, 0xFF, 0xFF, 0, 0, 0, 0]

def reset : Bytes :=
  [0x45, 0, 0, 40, 0, 1, 0, 0, 64, 6, 0, 0, 10, 0, 2, 50, 10, 0, 1, 100,
    0x01, 0xBB, 0xAB, 0xE1, 0, 0, 0, 2, 0, 0, 0, 1, 0x50, 0x04, 0xFF, 0xFF, 0, 0, 0, 0]

def packetInfo (flags : TCPFlags) : PacketInfo where
  srcMAC := ""
  dstMAC := ""
  srcIP := "10.0.2.50"
  dstIP := "10.0.1.100"
  protocol := "TCP"
  srcPort := 443
  dstPort := 44001
  tcpFlags := flags
  icmpType := none
  icmpCode := none
  fragment := .none
  packetSize := 40
  ipv6ExtHeaders := []

private theorem parse_synAck :
    ParsePacket fixedFields synAck = .ok (packetInfo ⟨true, true, false, false⟩) := by
  decide +kernel

private theorem parse_reset :
    ParsePacket fixedFields reset = .ok (packetInfo ⟨false, false, true, false⟩) := by
  decide +kernel

def synAckInfo : PacketInfo := packetInfo ⟨true, true, false, false⟩

def resetInfo : PacketInfo := packetInfo ⟨false, false, true, false⟩

/-- The engine once the handler has accepted SYN and ACK. -/
def opened : Engine :=
  (gatheredEngine (quietEnv everywhere 0) synAckInfo synAck.length freshEngine
    (newTable defaultConfig) (newLimiter 0 0)).countAllowed

def openedTable : Table :=
  trackedTable (quietEnv everywhere 0) synAckInfo (newTable defaultConfig)

private theorem synAck_allowed : ((trackFlow (quietEnv everywhere 0) synAckInfo
    (newTable defaultConfig)).1.map fun flow => decide (Denied everywhere shipped
      (builtInput (quietEnv everywhere 0) synAckInfo flow
        (trackRates (quietEnv everywhere 0) synAckInfo synAck.length (newLimiter 0 0)).1
        openedTable))) = some false := by
  decide +kernel

private theorem synAck_rates :
    let r := trackRates (quietEnv everywhere 0) synAckInfo synAck.length (newLimiter 0 0)
    exceeds r = false ∧ r.2.alpha = 3 / 10 ∧ r.2.ppsLimit = 0 ∧ r.2.bpsLimit = 0 ∧
      Spaced r.2 100 gap (0 + 2 * gap) :=
  have spaced := newLimiter_spaced 0 0 100 gap 0
  (trackRates_calm everywhere synAckInfo synAck.length rfl rfl rfl spaced).2.2

private theorem synAck_accepted :
    (packetHandler fixedFields (quietEnv everywhere 0) (some synAck)).Returns freshEngine 0
      opened := by
  obtain ⟨flow, tracked, allowed⟩ := Option.map_eq_some_iff.mp synAck_allowed
  obtain ⟨below, -⟩ := synAck_rates
  obtain ⟨answer, answered, allows⟩ := quietEnv_allows 0 (of_decide_eq_false allowed)
  have admitted : Admitted (quietEnv everywhere 0) synAckInfo synAck.length freshEngine
      (newTable defaultConfig) flow (newLimiter 0 0) := ⟨rfl, tracked, rfl, rfl, below⟩
  have traced : (quietEnv everywhere 0).traceBytes = .ok [0, 0, 0, 0] := rfl
  exact handler_accepts (freshEngine_calm 0).bare traced parse_synAck admitted answered allows

private theorem openedTable_established : ∃ f, openedTable.flows.lookup
    (flowKey "10.0.2.50" "10.0.1.100" "TCP" 443 44001) = some f ∧ f.established = true := by
  have found : (openedTable.flows.lookup
      (flowKey "10.0.2.50" "10.0.1.100" "TCP" 443 44001)).map Flow.established = some true := by
    decide +kernel
  exact Option.map_eq_some_iff.mp found

private theorem opened_reset : EstablishedReset opened resetInfo := by
  obtain ⟨f, found, established⟩ := openedTable_established
  exact ⟨rfl, rfl, rfl, rfl, openedTable, f, rfl, found, established⟩

private theorem reset_built : ∃ tid i e', (gather (quietEnv everywhere (0 + 2 * gap)) resetInfo
    reset.length).Returns opened (.built tid i) e' := by
  obtain ⟨-, alpha, pps, bps, spaced⟩ := synAck_rates
  obtain ⟨-, -, below, -⟩ := trackRates_calm everywhere resetInfo reset.length alpha pps bps spaced
  have unlimited : openedTable.cfg.maxFlowsPerSrcIP = 0 := by
    rw [openedTable, trackedTable_cfg]
    rfl
  obtain ⟨flow, tracked⟩ := trackFlow_some (quietEnv everywhere (0 + 2 * gap)) resetInfo unlimited
  have admitted : Admitted (quietEnv everywhere (0 + 2 * gap)) resetInfo reset.length opened
      openedTable flow _ := ⟨rfl, tracked, rfl, rfl, below⟩
  have traced : (quietEnv everywhere (0 + 2 * gap)).traceBytes = .ok [0, 0, 0, 0] := rfl
  obtain ⟨tid, built⟩ := gather_admitted traced admitted
  exact ⟨tid, _, _, built⟩

/-- A reset on a connection that the engine itself has reported as established. -/
theorem reset_after_synAck_violates :
    (packetHandler fixedFields (quietEnv everywhere 0) (some synAck)).Returns freshEngine 0
      opened ∧
    ParsePacket fixedFields reset = .ok resetInfo ∧ EstablishedReset opened resetInfo ∧
    ∃ tid i e', (gather (quietEnv everywhere (0 + 2 * gap)) resetInfo reset.length).Returns opened
      (.built tid i) e' ∧ (deny_state_violation shipped i.document).holds = true := by
  obtain ⟨tid, i, e', built⟩ := reset_built
  exact ⟨synAck_accepted, parse_reset, opened_reset, tid, i, e', built,
    (built_reset_violates rfl rfl built).2⟩

theorem opened_reset_violates :
    ∃ tid i e', (gather (quietEnv everywhere (0 + 2 * gap)) resetInfo reset.length).Returns opened
      (.built tid i) e' ∧ i.connection.established = false ∧
      (deny_state_violation shipped i.document).holds = true := by
  obtain ⟨tid, i, e', built⟩ := reset_built
  exact ⟨tid, i, e', built, reset_on_established_violates opened_reset built⟩

end Example

end L3Firewall.Pipeline.Resets
