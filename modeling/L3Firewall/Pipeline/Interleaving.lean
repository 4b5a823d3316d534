/- Pipeline/Interleaving
   source: internal/engine/engine.go
   digest: The queue hook one shared access at a time, beside what changes the tables under it. -/

import L3Firewall.Pipeline.Course

set_option autoImplicit false
set_option relaxedAutoImplicit false

namespace L3Firewall.Pipeline.Interleaving

open Conntrack.FlowTable (Time Duration Table Flow FlowOrder second)
open Ratelimit.Buckets (Limiter)
open Threatintel.Lookup (Blocklist)
open Packet.Parser (Bytes Decoder PacketInfo ParsePacket)
open Opa.Document (Input BuildInput)
open Opa.Evaluator (Text text Result)
open Handlers
open Course

structure Job where
  env : Env
  pi : PacketInfo
  raw : Bytes
  tid : String

/-- Where the hook stands, by the access to shared state that comes next. -/
inductive Stage
  | idle
  | flow (job : Job)
  | port (job : Job) (flow : Flow)
  | rate (job : Job) (flow : Flow)
  | portRate (job : Job) (flow : Flow) (pps bps : ℚ)
  | connRate (job : Job) (flow : Flow) (rates : Rates)
  | ports (job : Job) (flow : Flow) (rates : Rates) (newConnRate : ℚ)
  | blocklist (job : Job) (input : Input)

def job? : Stage → Option Job
  | .idle => none
  | .flow job | .port job _ | .rate job _ | .portRate job _ _ _ | .connRate job _ _
  | .ports job _ _ _ | .blocklist job _ => some job

structure System where
  engine : Engine
  hook : Stage

/-- The hook takes the next packet or makes its next access; the ticker of Run expires flows
and cleans up buckets; the refresher has changed the blocklist. -/
inductive Label
  | arrive (env : Env) (payload : Option Bytes)
  | advance
  | expire (o : FlowOrder) (now : Time)
  | cleanup (now : Time)
  | refresh (bl : Blocklist)

def idleThreshold : Duration := 5 * 60 * second

section Hook

/-- The packet ends here; the hook returns the decision. -/
def finish (env : Env) (pi : PacketInfo) (raw : Bytes) (e : Engine) (ending : Ending) :
    Option Nat × System :=
  let decided := decision env raw (result env pi (e, ending))
  (some decided.1, ⟨decided.2, .idle⟩)

def Job.finish (job : Job) : Engine → Ending → Option Nat × System :=
  Interleaving.finish job.env job.pi job.raw

def arrive (d : Decoder) (env : Env) (payload : Option Bytes) (e : Engine) :
    Option Nat × System :=
  match payload with
  | none => (some 1, ⟨e.countProcessed.countBlocked, .idle⟩)
  | some raw =>
      match ParsePacket d raw with
      | .error _ => (some 1, ⟨e.countProcessed.countBlocked, .idle⟩)
      | .ok pi =>
          match traceID env with
          | .error value => finish env pi raw e.countProcessed (.panicked value)
          | .ok tid => (none, ⟨e.countProcessed, .flow ⟨env, pi, raw, tid⟩⟩)

def accessFlow (job : Job) (e : Engine) : Option Nat × System :=
  match e.conntrack with
  | none => job.finish e (.panicked nilPointer)
  | some t =>
      let e := { e with conntrack := some (trackFlow job.env job.pi t).2 }
      match (trackFlow job.env job.pi t).1 with
      | none => job.finish e (connLimitEnding job.pi job.tid)
      | some flow => (none, ⟨e, .port job flow⟩)

/-- The check of the MAC address looks at nothing that others change. -/
def accessPort (job : Job) (flow : Flow) (e : Engine) : Option Nat × System :=
  match e.conntrack with
  | none => job.finish e (.panicked nilPointer)
  | some t =>
      let e := { e with conntrack := some (trackPort job.pi t) }
      match macRefusal e.l2Filter job.pi.srcMAC with
      | some reason => job.finish e (.blocked job.tid (text reason) none)
      | none => (none, ⟨e, .rate job flow⟩)

def accessRate (job : Job) (flow : Flow) (e : Engine) : Option Nat × System :=
  match e.ratelimit with
  | none => job.finish e (.panicked nilPointer)
  | some l =>
      let tracked := l.Allow job.env.rateOrder job.pi.srcIP job.raw.length job.env.rateTime
      (none, ⟨{ e with ratelimit := some tracked.2 }, .portRate job flow tracked.1.1 tracked.1.2⟩)

/-- The limits themselves never change. -/
def accessPortRate (job : Job) (flow : Flow) (pps bps : ℚ) (e : Engine) : Option Nat × System :=
  match e.ratelimit with
  | none => job.finish e (.panicked nilPointer)
  | some l =>
      let tracked := l.AllowPort job.env.portOrder job.pi.srcIP job.pi.dstPort job.raw.length
        job.env.portTime
      let rates : Rates := ⟨pps, bps, tracked.1.1, tracked.1.2⟩
      let e := { e with ratelimit := some tracked.2 }
      if exceeds (rates, tracked.2) then
        job.finish e (.blocked job.tid (rateLimitReason rates) none)
      else (none, ⟨e, .connRate job flow rates⟩)

def accessConnRate (job : Job) (flow : Flow) (rates : Rates) (e : Engine) : Option Nat × System :=
  match e.conntrack with
  | none => job.finish e (.panicked nilPointer)
  | some t =>
      (none, ⟨e, .ports job flow rates (t.newConnectionRate job.pi.srcIP job.env.connRateTime)⟩)

def jobInput (job : Job) (flow : Flow) (rates : Rates) (newConnRate : ℚ)
    (recentPorts : List UInt16) : Input :=
  BuildInput job.pi rates.pps rates.bps flow.established
    (if job.pi.protocol = "TCP" then flow.tcpState.String else "")
    rates.portPPS rates.portBPS newConnRate recentPorts job.env.inputTime

def accessPorts (job : Job) (flow : Flow) (rates : Rates) (newConnRate : ℚ) (e : Engine) :
    Option Nat × System :=
  match e.conntrack with
  | none => job.finish e (.panicked nilPointer)
  | some t =>
      (none, ⟨e, .blocklist job
        (jobInput job flow rates newConnRate (t.getRecentDestPorts job.pi.srcIP))⟩)

/-- What follows the blocklist reads nothing that others change. -/
def accessBlocklist (job : Job) (input : Input) (e : Engine) : Option Nat × System :=
  job.finish e (conclusion job.env e job.pi job.tid input)

def advance (S : System) : Option Nat × System :=
  match S.hook with
  | .idle => (none, S)
  | .flow job => accessFlow job S.engine
  | .port job flow => accessPort job flow S.engine
  | .rate job flow => accessRate job flow S.engine
  | .portRate job flow pps bps => accessPortRate job flow pps bps S.engine
  | .connRate job flow rates => accessConnRate job flow rates S.engine
  | .ports job flow rates newConnRate => accessPorts job flow rates newConnRate S.engine
  | .blocklist job input => accessBlocklist job input S.engine

end Hook

/-- The hook is one goroutine: a packet that arrives while it is busy waits in the queue. -/
def step (d : Decoder) (S : System) : Label → Option Nat × System
  | .arrive env payload =>
      match S.hook with
      | .idle => arrive d env payload S.engine
      | _ => (none, S)
  | .advance => advance S
  | .expire o now =>
      (none, { S with engine :=
        { S.engine with conntrack := S.engine.conntrack.map (·.expire o now) } })
  | .cleanup now =>
      (none, { S with engine :=
        { S.engine with ratelimit := S.engine.ratelimit.map (·.Cleanup idleThreshold now |>.2) } })
  | .refresh bl =>
      (none, { S with engine :=
        { S.engine with threatIntel := S.engine.threatIntel.map fun _ => bl } })

def perform (d : Decoder) : System → List Label → List Nat × System
  | S, [] => ([], S)
  | S, label :: rest =>
      let (decided, next) := step d S label
      let (later, last) := perform d next rest
      (decided.toList ++ later, last)

def accesses : Nat := 7

section Alone

variable {d : Decoder} {e : Engine} {job : Job} {flow : Flow} {rates : Rates}

private theorem perform_cons (S : System) (label : Label) (rest : List Label) :
    perform d S (label :: rest) =
      ((step d S label).1.toList ++ (perform d (step d S label).2 rest).1,
      (perform d (step d S label).2 rest).2) :=
  rfl

private theorem perform_idle (e : Engine) (n : Nat) :
    perform d ⟨e, .idle⟩ (List.replicate n .advance) = ([], ⟨e, .idle⟩) := by
  induction n with
  | zero => rfl
  | succ n ih =>
      rw [List.replicate_succ, perform_cons]
      change ([] ++ (perform d ⟨e, .idle⟩ _).1, (perform d ⟨e, .idle⟩ _).2) = _
      rw [ih]
      rfl

/-- The rest of a run in which nothing but the hook moves. -/
def undisturbed (d : Decoder) (n : Nat) (now : Option Nat × System) : List Nat × System :=
  (now.1.toList ++ (perform d now.2 (List.replicate n .advance)).1,
    (perform d now.2 (List.replicate n .advance)).2)

def outcome (job : Job) (reached : Engine × Ending) : List Nat × System :=
  let decided := decision job.env job.raw (result job.env job.pi reached)
  ([decided.1], ⟨decided.2, .idle⟩)

private theorem undisturbed_advance (n : Nat) (S : System) :
    undisturbed d (n + 1) (none, S) = undisturbed d n (advance S) := rfl

private theorem undisturbed_finish (job : Job) (n : Nat) (e : Engine) (ending : Ending) :
    undisturbed d n (job.finish e ending) = outcome job (e, ending) := by
  unfold undisturbed
  change ([_] ++ (perform d ⟨_, .idle⟩ _).1, (perform d ⟨_, .idle⟩ _).2) = _
  rw [perform_idle]
  rfl

private theorem undisturbed_blocklist (n : Nat) (input : Input) :
    undisturbed d (n + 1) (none, ⟨e, .blocklist job input⟩) =
      outcome job (e, conclusion job.env e job.pi job.tid input) := by
  rw [undisturbed_advance]
  exact undisturbed_finish job n e _

private theorem undisturbed_connRate {t : Table} (tracked : e.conntrack = some t) (n : Nat) :
    undisturbed d (n + 3) (none, ⟨e, .connRate job flow rates⟩) =
      outcome job (e, conclusion job.env e job.pi job.tid
        (builtInput job.env job.pi flow rates t)) := by
  rw [undisturbed_advance]
  change undisturbed d (n + 2) (accessConnRate job flow rates e) = _
  unfold accessConnRate
  rw [tracked, undisturbed_advance]
  change undisturbed d (n + 1) (accessPorts job flow rates _ e) = _
  unfold accessPorts
  rw [tracked]
  exact undisturbed_blocklist n _

private theorem trackRates_eq (env : Env) (pi : PacketInfo) (size : Nat) (l : Limiter) :
    trackRates env pi size l =
      let ip := l.Allow env.rateOrder pi.srcIP size env.rateTime
      let port := ip.2.AllowPort env.portOrder pi.srcIP pi.dstPort size env.portTime
      (⟨ip.1.1, ip.1.2, port.1.1, port.1.2⟩, port.2) :=
  rfl

private theorem undisturbed_rate {t : Table} (tracked : e.conntrack = some t) (n : Nat) :
    undisturbed d (n + 5) (none, ⟨e, .rate job flow⟩) =
      outcome job (courseRates job.env job.pi job.raw.length job.tid flow t e) := by
  rw [undisturbed_advance]
  change undisturbed d (n + 4) (accessRate job flow e) = _
  unfold accessRate courseRates
  cases e.ratelimit with
  | none => exact undisturbed_finish job _ e _
  | some l =>
      rw [undisturbed_advance]
      change undisturbed d (n + 3) (accessPortRate job flow _ _ { e with ratelimit := some _ }) = _
      unfold accessPortRate
      dsimp only
      rw [trackRates_eq]
      dsimp only
      split
      · exact undisturbed_finish job _ _ _
      · refine undisturbed_connRate ?_ n
        exact tracked

private theorem undisturbed_flow (job : Job) (n : Nat) (e : Engine) :
    undisturbed d (n + 7) (none, ⟨e, .flow job⟩) =
      outcome job (courseFlow job.env job.pi job.raw.length job.tid e) := by
  rw [undisturbed_advance]
  change undisturbed d (n + 6) (accessFlow job e) = _
  unfold accessFlow courseFlow
  cases e.conntrack with
  | none => exact undisturbed_finish job _ e _
  | some t =>
      dsimp only
      cases (trackFlow job.env job.pi t).1 with
      | none => exact undisturbed_finish job _ _ _
      | some flow =>
          rw [undisturbed_advance]
          change undisturbed d (n + 5) (match macRefusal e.l2Filter job.pi.srcMAC with
            | some reason => _
            | none => _) = _
          dsimp only
          cases macRefusal e.l2Filter job.pi.srcMAC with
          | some reason => exact undisturbed_finish job _ _ _
          | none => exact undisturbed_rate rfl n

/-- Without interruption the steps of the hook are the function that the hook calls. -/
theorem perform_alone (d : Decoder) (env : Env) (payload : Option Bytes) (e : Engine) :
    perform d ⟨e, .idle⟩ (.arrive env payload :: List.replicate accesses .advance) =
      ([(handled d env payload e).1], ⟨(handled d env payload e).2, .idle⟩) := by
  rw [perform_cons]
  change undisturbed d accesses (arrive d env payload e) = _
  unfold arrive handled
  have unparsed : undisturbed d accesses (some 1, ⟨e.countProcessed.countBlocked, .idle⟩) =
      ([1], ⟨e.countProcessed.countBlocked, .idle⟩) := by
    unfold undisturbed
    rw [perform_idle]
    rfl
  cases payload with
  | none => exact unparsed
  | some raw =>
      dsimp only
      cases ParsePacket d raw with
      | error err => exact unparsed
      | ok pi =>
          dsimp only
          unfold evaluated course
          cases traceID env with
          | error value => exact undisturbed_finish ⟨env, pi, raw, ""⟩ _ _ _
          | ok tid => exact undisturbed_flow ⟨env, pi, raw, tid⟩ 0 e.countProcessed

end Alone

section Effects

variable {d : Decoder} {S : System} {e : Engine} {job : Job}

private theorem finish_conntrack (job : Job) (e : Engine) (ending : Ending) :
    (job.finish e ending).2.engine.conntrack = e.conntrack :=
  (decision_same job.env job.pi job.raw e ending).2.1

private theorem finish_ratelimit (job : Job) (e : Engine) (ending : Ending) :
    (job.finish e ending).2.engine.ratelimit = e.ratelimit :=
  (decision_same job.env job.pi job.raw e ending).2.2

theorem accessFlow_conntrack {t : Table} (present : e.conntrack = some t) :
    (accessFlow job e).2.engine.conntrack = some (trackFlow job.env job.pi t).2 := by
  unfold accessFlow
  rw [present]
  dsimp only
  split
  · exact finish_conntrack job _ _
  · rfl

theorem accessRate_ratelimit {flow : Flow} {l : Limiter} (present : e.ratelimit = some l) :
    (accessRate job flow e).2.engine.ratelimit =
      some (l.Allow job.env.rateOrder job.pi.srcIP job.raw.length job.env.rateTime).2 := by
  unfold accessRate
  rw [present]

theorem accessPortRate_ratelimit {flow : Flow} {pps bps : ℚ} {l : Limiter}
    (present : e.ratelimit = some l) :
    (accessPortRate job flow pps bps e).2.engine.ratelimit =
      some (l.AllowPort job.env.portOrder job.pi.srcIP job.pi.dstPort job.raw.length
        job.env.portTime).2 := by
  unfold accessPortRate
  rw [present]
  dsimp only
  split
  · exact finish_ratelimit job _ _
  · rfl

/-- The engine after the next access of the hook, before the packet is reported if it ends
there. -/
def advanced (S : System) : Engine :=
  match S.hook with
  | .flow job =>
      { S.engine with
        conntrack := S.engine.conntrack.map fun t => (trackFlow job.env job.pi t).2 }
  | .port job _ => { S.engine with conntrack := S.engine.conntrack.map (trackPort job.pi) }
  | .rate job _ =>
      { S.engine with
        ratelimit := S.engine.ratelimit.map fun l =>
          (l.Allow job.env.rateOrder job.pi.srcIP job.raw.length job.env.rateTime).2 }
  | .portRate job _ _ _ =>
      { S.engine with
        ratelimit := S.engine.ratelimit.map fun l =>
          (l.AllowPort job.env.portOrder job.pi.srcIP job.pi.dstPort job.raw.length
            job.env.portTime).2 }
  | .idle | .connRate _ _ _ | .ports _ _ _ _ | .blocklist _ _ => S.engine

/-- An access goes on with the packet, or the packet ends with it. Only the first access can
lead to the second. -/
inductive Reaches (job : Job) (e : Engine) (tracked : Prop) : Option Nat × System → Prop
  | moved {stage : Stage} (same : job? stage = some job)
      (port : (∃ flow, stage = .port job flow) → tracked) : Reaches job e tracked (none, ⟨e, stage⟩)
  | finished (ending : Ending) : Reaches job e tracked (job.finish e ending)

private theorem absent_table (absent : e.conntrack = none) : { e with conntrack := none } = e := by
  cases e
  cases absent
  rfl

private theorem absent_limiter (absent : e.ratelimit = none) :
    { e with ratelimit := none } = e := by
  cases e
  cases absent
  rfl

theorem advance_reaches (S : System) {job : Job} (busy : job? S.hook = some job) :
    Reaches job (advanced S) (S.hook = .flow job ∧ ∃ t flow, S.engine.conntrack = some t ∧
      (trackFlow job.env job.pi t).1 = some flow) (advance S) := by
  obtain ⟨e, hook⟩ := S
  unfold advance advanced
  cases hook with
  | idle => exact absurd busy nofun
  | flow job' =>
      obtain rfl : job' = job := Option.some.inj busy
      dsimp only
      unfold accessFlow
      cases present : e.conntrack with
      | none =>
          rw [Option.map_none, absent_table present]
          exact .finished _
      | some t =>
          dsimp only [Option.map_some]
          cases tracked : (trackFlow job'.env job'.pi t).1 with
          | none => exact .finished _
          | some flow => exact .moved rfl fun _ => ⟨rfl, t, flow, rfl, tracked⟩
  | port job' flow =>
      obtain rfl : job' = job := Option.some.inj busy
      dsimp only
      unfold accessPort
      cases present : e.conntrack with
      | none =>
          rw [Option.map_none, absent_table present]
          exact .finished _
      | some t =>
          dsimp only [Option.map_some]
          cases macRefusal e.l2Filter job'.pi.srcMAC with
          | some reason => exact .finished _
          | none => exact .moved rfl nofun
  | rate job' flow =>
      obtain rfl : job' = job := Option.some.inj busy
      dsimp only
      unfold accessRate
      cases present : e.ratelimit with
      | none =>
          rw [Option.map_none, absent_limiter present]
          exact .finished _
      | some l => exact .moved rfl nofun
  | portRate job' flow pps bps =>
      obtain rfl : job' = job := Option.some.inj busy
      dsimp only
      unfold accessPortRate
      cases present : e.ratelimit with
      | none =>
          rw [Option.map_none, absent_limiter present]
          exact .finished _
      | some l =>
          dsimp only [Option.map_some]
          split
          · exact .finished _
          · exact .moved rfl nofun
  | connRate job' flow rates =>
      obtain rfl : job' = job := Option.some.inj busy
      dsimp only
      unfold accessConnRate
      cases e.conntrack with
      | none => exact .finished _
      | some t => exact .moved rfl nofun
  | ports job' flow rates newConnRate =>
      obtain rfl : job' = job := Option.some.inj busy
      dsimp only
      unfold accessPorts
      cases e.conntrack with
      | none => exact .finished _
      | some t => exact .moved rfl nofun
  | blocklist job' input =>
      obtain rfl : job' = job := Option.some.inj busy
      exact .finished _

theorem arrive_cases (d : Decoder) (env : Env) (payload : Option Bytes) (e : Engine) :
    arrive d env payload e = (some 1, ⟨e.countProcessed.countBlocked, .idle⟩) ∨
      ∃ pi raw, (∃ value, arrive d env payload e =
        finish env pi raw e.countProcessed (.panicked value)) ∨
        ∃ tid, arrive d env payload e = (none, ⟨e.countProcessed, .flow ⟨env, pi, raw, tid⟩⟩) := by
  unfold arrive
  cases payload with
  | none => exact .inl rfl
  | some raw =>
      dsimp only
      cases ParsePacket d raw with
      | error err => exact .inl rfl
      | ok pi =>
          dsimp only
          cases traceID env with
          | error value => exact .inr ⟨pi, raw, .inl ⟨value, rfl⟩⟩
          | ok tid => exact .inr ⟨pi, raw, .inr ⟨tid, rfl⟩⟩

theorem step_arrive {env : Env} {payload : Option Bytes} (idle : S.hook = .idle) :
    step d S (.arrive env payload) = arrive d env payload S.engine := by
  unfold step
  rw [idle]

theorem step_busy {env : Env} {payload : Option Bytes} (busy : S.hook ≠ .idle) :
    step d S (.arrive env payload) = (none, S) := by
  obtain ⟨e, hook⟩ := S
  cases hook with
  | idle => exact absurd rfl busy
  | _ => rfl

end Effects

end L3Firewall.Pipeline.Interleaving
