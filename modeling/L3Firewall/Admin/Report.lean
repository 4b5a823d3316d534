/- Admin/Report
   source: internal/admin/api.go, internal/metrics/metrics.go, cmd/server/main.go
   digest: The two reports of the size of the connection table, over runs of the engine. -/

import L3Firewall.Conntrack.Conservation
import L3Firewall.Foundation.Json
import L3Firewall.Pipeline.PortScan

set_option autoImplicit false
set_option relaxedAutoImplicit false

namespace L3Firewall.Admin.Report

open Foundation.FiniteMap
open Foundation.Json (Value)
open Foundation.JsonText (decimal intValue intValue_decimal)
open Foundation.Runs
open Foundation.Utf8 (Bytes)
open Conntrack.FlowTable Conntrack.Accounting
open Conntrack.Conservation (removals apply_booked)
open Conntrack.PortHistory (newTable_tracked)
open Packet.Parser (PacketInfo)
open Pipeline.Handlers
open Pipeline.PortScan
open Pipeline.Quiet (quietEnv freshEngine)

section Handlers

/-- What the handler reads beside the counters: its version, and the state and age of the
engine. -/
structure API where
  version : Bytes
  running : Bool
  uptime : Bytes

/-- The members of the response. An engine without a table panics. -/
def handleStats (a : API) (e : Engine) : Option (List (String × Value)) :=
  e.conntrack.map fun t =>
    [("packets_processed", .number (decimal e.packetsProcessed)),
      ("packets_allowed", .number (decimal e.packetsAllowed)),
      ("packets_blocked", .number (decimal e.packetsBlocked)),
      ("conntrack_entries", .number (decimal t.stats.created)),
      ("conntrack_expired", .number (decimal t.stats.expired)),
      ("conntrack_evicted", .number (decimal t.stats.evicted)),
      ("engine_running", .bool a.running),
      ("uptime", .string a.uptime),
      ("version", .string a.version)]

def integerOf (name : String) (members : List (String × Value)) : Option Int :=
  match members.lookup name with
  | some (.number text) => intValue text
  | _ => none

def reportedEntries (a : API) (e : Engine) : Option Int :=
  (handleStats a e).bind (integerOf "conntrack_entries")

/-- The gauge l3_firewall_conntrack_entries, which main sets up to read the engine's table. -/
def gaugeEntries (e : Engine) : Option Int :=
  e.conntrack.map fun t => (len t.flows : Int)

private theorem reportedEntries_eq (a : API) {e : Engine} {t : Table}
    (table : e.conntrack = some t) :
    reportedEntries a e = some (t.stats.created : Int) := by
  unfold reportedEntries handleStats
  rw [table]
  exact intValue_decimal _

end Handlers

section Steps

variable {cfg : Config} {s s' : State} {t t' : Table}

/-- The number of flows that a step removes. A packet without random bytes for its trace is
not tracked. -/
def removedBy (s : State) (a : Act) : Nat :=
  match s.engine.conntrack with
  | none => 0
  | some t =>
      match a with
      | .packet env pi _ =>
          match env.traceBytes with
          | .error _ => 0
          | .ok _ => removals t (trackOp env pi)
      | .delete srcIP dstIP protocol srcPort dstPort =>
          removals t (.delete srcIP dstIP protocol srcPort dstPort)
      | .expire o now => removals t (.expire o now)

def Keeps (s : State) (a : Act) : Prop := removedBy s a = 0

/-- Flows that were made are tracked, unless they have been removed. -/
def Balanced (t t' : Table) (n : Nat) : Prop :=
  t'.stats.created + len t.flows = t.stats.created + len t'.flows + n

private theorem trackedTable_books (env : Env) (pi : PacketInfo) (t : Table) :
    (trackedTable env pi t).stats = (t.apply (trackOp env pi)).stats ∧
      (trackedTable env pi t).flows = (t.apply (trackOp env pi)).flows := by
  unfold trackedTable trackPort
  rw [trackFlow_table]
  split
  · obtain ⟨ports, same⟩ :=
      recordDestPort_frame (t.apply (trackOp env pi)) pi.srcIP pi.dstPort
    rw [same]
    exact ⟨rfl, rfl⟩
  · exact ⟨rfl, rfl⟩

private theorem packet_balanced (followed : Followed cfg s t) (env : Env) (pi : PacketInfo)
    (size : Nat) :
    Balanced t (tableAfter env pi t) (removedBy s (.packet env pi size)) := by
  have booked := (apply_booked followed.accounted (trackOp env pi)).flows
  unfold removedBy tableAfter
  rw [followed.table]
  dsimp only
  cases traced : env.traceBytes with
  | error err => exact rfl
  | ok bytes =>
      cases flow : (trackFlow env pi t).1 with
      | none =>
          dsimp only
          rw [trackFlow_table]
          exact booked
      | some flow' =>
          obtain ⟨stats, flows⟩ := trackedTable_books env pi t
          dsimp only
          unfold Balanced
          rw [stats, flows]
          exact booked

private theorem step_balanced {a : Act} (followed : Followed cfg s t) (taken : next s a = some s') :
    ∃ t', Followed cfg s' t' ∧ Balanced t t' (removedBy s a) := by
  unfold next at taken
  rw [followed.table] at taken
  obtain rfl := Option.some.inj taken
  cases a with
  | packet env pi size =>
      exact ⟨_, followed.packet env pi size, packet_balanced followed env pi size⟩
  | delete srcIP dstIP protocol srcPort dstPort =>
      refine ⟨_, followed.call _, ?_⟩
      unfold removedBy
      rw [followed.table]
      exact (apply_booked followed.accounted _).flows
  | expire o now =>
      refine ⟨_, followed.call _, ?_⟩
      unfold removedBy
      rw [followed.table]
      exact (apply_booked followed.accounted _).flows

private theorem run_balanced (followed : Followed cfg s t) (acts : List Act)
    (ran : (scanning cfg).run s acts = some s') :
    ∃ t' n, Followed cfg s' t' ∧ Balanced t t' n ∧
      (n = 0 ↔ (scanning cfg).Along Keeps s acts) := by
  induction acts generalizing s t with
  | nil =>
      obtain rfl := Option.some.inj ran
      exact ⟨t, 0, followed, rfl, iff_of_true rfl trivial⟩
  | cons a acts ih =>
      obtain ⟨middle, taken, rest⟩ := Option.bind_eq_some_iff.mp ran
      obtain ⟨u, followed', first⟩ := step_balanced followed taken
      obtain ⟨t', n, reached, later, along⟩ := ih followed' rest
      unfold Balanced at first later
      refine ⟨t', removedBy s a + n, reached, ?_, ?_⟩
      · unfold Balanced
        omega
      · rw [Nat.add_eq_zero_iff, along]
        constructor
        · rintro ⟨now, further⟩
          refine ⟨now, fun other same => ?_⟩
          obtain rfl := Option.some.inj (taken.symm.trans same)
          exact further
        · rintro ⟨now, further⟩
          exact ⟨now, further middle taken⟩

end Steps

/-- The two reports. After every run of packets, deletions and expiries on a new table, the
size that the admin API reports is that of the gauge exactly when no step of the run removed
a flow. -/
theorem entries_agree_iff (cfg : Config) (s s' : State) (started : (scanning cfg).init s)
    (acts : List Act) (ran : (scanning cfg).run s acts = some s') (a : API) :
    reportedEntries a s'.engine = gaugeEntries s'.engine ↔
      (scanning cfg).Along Keeps s acts := by
  obtain ⟨table, empty⟩ := started
  have followed : Followed cfg s (newTable cfg) :=
    ⟨table, rfl, newTable_accounted cfg, empty ▸ newTable_tracked cfg⟩
  obtain ⟨t, n, reached, balanced, along⟩ := run_balanced followed acts ran
  have books : t.stats.created = len t.flows + n := by
    change t.stats.created + 0 = 0 + len t.flows + n at balanced
    omega
  rw [← along, reportedEntries_eq a reached.table, gaugeEntries, reached.table, books]
  simp only [Option.map_some, Option.some.injEq]
  omega

section Example

def launched : State := ⟨freshEngine, fun _ => []⟩

def arrival : Act := .packet (quietEnv noBuiltins 0) (probe 0) 40

def oneFlow : Table := tableAfter (quietEnv noBuiltins 0) (probe 0) (newTable defaultConfig)

def expiry : Act := .expire RangeOrder.stored 1000000000000

private theorem arrival_table : ∃ s, (scanning defaultConfig).run launched [arrival] = some s ∧
    s.engine.conntrack = some oneFlow :=
  ⟨_, rfl, evaluatePacket_table rfl⟩

theorem reports_agree_after_arrival :
    (scanning defaultConfig).init launched ∧ ∃ s,
      (scanning defaultConfig).run launched [arrival] = some s ∧
      reportedEntries ⟨[], true, []⟩ s.engine = gaugeEntries s.engine := by
  have started : (scanning defaultConfig).init launched := ⟨rfl, rfl⟩
  obtain ⟨s, ran, -⟩ := arrival_table
  have kept : (scanning defaultConfig).Along Keeps launched [arrival] :=
    ⟨(by decide : removedBy launched arrival = 0), fun _ _ => trivial⟩
  exact ⟨started, s, ran,
    (entries_agree_iff defaultConfig launched s started [arrival] ran ⟨[], true, []⟩).mpr kept⟩

/-- The flow of the packet expires. The gauge is back at zero, and the admin API goes on
reporting one entry. -/
theorem expired_flow_still_reported :
    (scanning defaultConfig).init launched ∧ ∃ s,
      (scanning defaultConfig).run launched [arrival, expiry] = some s ∧
      reportedEntries ⟨[], true, []⟩ s.engine = some 1 ∧ gaugeEntries s.engine = some 0 := by
  obtain ⟨s, ran, table⟩ := arrival_table
  obtain ⟨s', taken, rest⟩ := Option.bind_eq_some_iff.mp ran
  obtain rfl := Option.some.inj rest
  have expired :
      next s' expiry = some (s'.call oneFlow (.expire RangeOrder.stored 1000000000000)) := by
    unfold next
    rw [table]
    rfl
  refine ⟨⟨rfl, rfl⟩, _, Option.bind_eq_some_iff.mpr ⟨s', taken, Option.bind_eq_some_iff.mpr
    ⟨_, expired, rfl⟩⟩, ?_, ?_⟩
  · rw [reportedEntries_eq _ rfl]
    decide
  · change some (len (oneFlow.apply (.expire RangeOrder.stored 1000000000000)).flows : Int) = some 0
    decide

end Example

end L3Firewall.Admin.Report
