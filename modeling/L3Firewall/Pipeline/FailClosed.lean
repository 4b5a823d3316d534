/- Pipeline/FailClosed
   source: internal/engine/engine.go
   digest: One verdict for each queued packet, and an accept only past every gate. -/

import L3Firewall.Pipeline.Handlers

set_option autoImplicit false
set_option relaxedAutoImplicit false

namespace L3Firewall.Pipeline.FailClosed

open Foundation.Recover
open Foundation.Recover.Action
open Conntrack.FlowTable (Table Flow)
open Ratelimit.Buckets (Limiter)
open Packet.Parser (Bytes Decoder PacketInfo ParsePacket)
open Opa.Document (Input GeoInfo)
open Opa.Evaluator (Text Result)
open Handlers

variable {env : Env} {pi : PacketInfo} {size : Nat} {tid : String} {reason : Text}
  {e e' : Engine} {result : Result}

section Steps

@[simp] theorem returns_attempt {α : Type} {call : Except String α} {a : α} :
    (attempt call).Returns e a e' ↔ call = .ok a ∧ e = e' := by
  unfold attempt
  cases call with
  | ok b => simp only [returns_pure, Except.ok.injEq]
  | error value => simp only [returns_fail, reduceCtorEq, false_and]

@[simp] theorem returns_deref {α : Type} {component : Option α} {a : α} :
    (deref component).Returns e a e' ↔ component = some a ∧ e = e' := by
  unfold deref
  cases component with
  | some b => simp only [returns_pure, Option.some.injEq]
  | none => simp only [returns_fail, reduceCtorEq, false_and]

private theorem newTraceID_state (returned : (newTraceID env).Returns e tid e') : e' = e := by
  unfold newTraceID at returned
  split at returned
  · exact (returns_pure.mp returned).2.symm
  · exact absurd returned returns_fail

private theorem block_result (returned : (block env pi tid reason).Returns e result e') :
    result = ⟨false, reason⟩ := by
  obtain ⟨_, _, -, returned⟩ := returns_bind.mp returned
  obtain ⟨_, _, -, returned⟩ := returns_bind.mp returned
  obtain ⟨_, _, -, returned⟩ := returns_bind.mp returned
  exact (returns_pure.mp returned).1.symm

private theorem blockAndAlert_result {type : AlertType} {message : Text}
    (returned : (blockAndAlert env pi tid reason type message).Returns e result e') :
    result = ⟨false, reason⟩ := by
  obtain ⟨blocked, _, first, returned⟩ := returns_bind.mp returned
  obtain ⟨_, _, -, returned⟩ := returns_bind.mp returned
  rw [← (returns_pure.mp returned).1]
  exact block_result first

private theorem accept_result {type : EventType} {given : Result}
    (returned : (accept env pi tid type reason given).Returns e result e') : result = given := by
  obtain ⟨_, _, -, returned⟩ := returns_bind.mp returned
  obtain ⟨_, _, -, returned⟩ := returns_bind.mp returned
  exact (returns_pure.mp returned).1.symm

end Steps

section Gather

def gatheredEngine (env : Env) (pi : PacketInfo) (size : Nat) (e : Engine) (t : Table)
    (l : Limiter) : Engine :=
  { e.countProcessed with
    conntrack := some (trackedTable env pi t)
    ratelimit := some (trackRates env pi size l).2 }

/-- The packet gets as far as its input: it has a flow, its MAC address is allowed and its
source is below the limits. -/
structure Admitted (env : Env) (pi : PacketInfo) (size : Nat) (e : Engine) (t : Table)
    (flow : Flow) (l : Limiter) : Prop where
  table : e.conntrack = some t
  tracked : (trackFlow env pi t).1 = some flow
  mac : macRefusal e.l2Filter pi.srcMAC = none
  limiter : e.ratelimit = some l
  below : exceeds (trackRates env pi size l) = false

private theorem gatherRates_cases {flow : Flow} {gathered : Gathered}
    (returned : (gatherRates env pi size tid flow).Returns e gathered e') :
    ∃ l, e.ratelimit = some l ∧
      ((exceeds (trackRates env pi size l) = true ∧
        ∃ refusal, gathered = .refused refusal ∧ refusal.allowed = false) ∨
      (exceeds (trackRates env pi size l) = false ∧
        ∃ t, e.conntrack = some t ∧
          gathered = .built tid (builtInput env pi flow (trackRates env pi size l).1 t) ∧
          e' = { e with ratelimit := some (trackRates env pi size l).2 })) := by
  obtain ⟨_, _, started, returned⟩ := returns_bind.mp returned
  obtain ⟨rfl, rfl⟩ := returns_read.mp started
  obtain ⟨l, _, present, returned⟩ := returns_bind.mp returned
  obtain ⟨limiter, rfl⟩ := returns_deref.mp present
  obtain ⟨_, _, stored, returned⟩ := returns_bind.mp returned
  obtain rfl := returns_update.mp stored
  refine ⟨l, limiter, ?_⟩
  split at returned
  · next above =>
    obtain ⟨refusal, _, blocked, returned⟩ := returns_bind.mp returned
    refine .inl ⟨above, refusal, (returns_pure.mp returned).1.symm, ?_⟩
    rw [block_result blocked]
  · next below =>
    obtain ⟨t, _, present, returned⟩ := returns_bind.mp returned
    obtain ⟨tracked, rfl⟩ := returns_deref.mp present
    obtain ⟨built, rfl⟩ := returns_pure.mp returned
    exact .inr ⟨Bool.eq_false_iff.mpr below, t, tracked, built.symm, rfl⟩

theorem gather_cases {gathered : Gathered}
    (returned : (gather env pi size).Returns e gathered e') :
    (∃ refusal, gathered = .refused refusal ∧ refusal.allowed = false ∧
      ∀ t flow l, ¬ Admitted env pi size e t flow l) ∨
    ∃ tid t flow l, Admitted env pi size e t flow l ∧
      gathered = .built tid
        (builtInput env pi flow (trackRates env pi size l).1 (trackedTable env pi t)) ∧
      e' = gatheredEngine env pi size e t l := by
  obtain ⟨_, _, counted, returned⟩ := returns_bind.mp returned
  obtain rfl := returns_update.mp counted
  obtain ⟨tid, _, traced, returned⟩ := returns_bind.mp returned
  obtain rfl := newTraceID_state traced
  obtain ⟨_, _, started, returned⟩ := returns_bind.mp returned
  obtain ⟨rfl, rfl⟩ := returns_read.mp started
  obtain ⟨t, _, found, returned⟩ := returns_bind.mp returned
  obtain ⟨table, rfl⟩ := returns_deref.mp found
  obtain ⟨_, _, stored, returned⟩ := returns_bind.mp returned
  obtain rfl := returns_update.mp stored
  split at returned
  · next none_left =>
    obtain ⟨refusal, _, blocked, returned⟩ := returns_bind.mp returned
    refine .inl ⟨refusal, (returns_pure.mp returned).1.symm, ?_, fun u flow l admitted => ?_⟩
    · rw [blockAndAlert_result blocked]
    · have flows := admitted.tracked
      rw [Option.some.inj (admitted.table.symm.trans table), none_left] at flows
      exact absurd flows nofun
  · next flow found =>
    obtain ⟨_, _, stored, returned⟩ := returns_bind.mp returned
    obtain rfl := returns_update.mp stored
    split at returned
    · next message refused =>
      obtain ⟨refusal, _, blocked, returned⟩ := returns_bind.mp returned
      refine .inl ⟨refusal, (returns_pure.mp returned).1.symm, ?_, fun u flow l admitted => ?_⟩
      · rw [block_result blocked]
      · exact absurd (refused.symm.trans admitted.mac) nofun
    · next mac =>
      obtain ⟨l, limiter, ⟨above, refusal, refused, blocked⟩ | ⟨below, u, tracked, built, state⟩⟩ :=
        gatherRates_cases returned
      · refine .inl ⟨refusal, refused, blocked, fun u flow k admitted => ?_⟩
        have below := admitted.below
        rw [Option.some.inj (admitted.limiter.symm.trans limiter), above] at below
        exact absurd below nofun
      · obtain rfl := Option.some.inj tracked
        exact .inr ⟨tid, t, flow, l, ⟨table, found, mac, limiter, below⟩, built, state⟩

end Gather

section Lists

private theorem macRefusal_eq_none {l2Filter : Option L2filter.MacLists.Filter} {srcMAC : String} :
    macRefusal l2Filter srcMAC = none ↔
      ∀ f, l2Filter = some f → (f.MACAllowed srcMAC).1 = true := by
  cases l2Filter with
  | none => simp [macRefusal]
  | some f => simp [macRefusal]

private theorem listed_eq_false {threatIntel : Option Threatintel.Lookup.Blocklist}
    {srcIP : String} :
    listed threatIntel srcIP = false ↔
      ∀ bl, threatIntel = some bl → bl.Contains srcIP = false := by
  cases threatIntel with
  | none => simp [listed]
  | some bl => simp [listed]

end Lists

section Judge

/-- The decision lets the packet pass: there is no evaluator and that fails open, or the
evaluator answered and its answer or the audit-only mode allows. -/
def Decides (env : Env) (e : Engine) (input : Input) : Prop :=
  (e.eval = false ∧ e.failClosed = false) ∨
    (e.eval = true ∧ ∃ answer, env.evaluate input = .returned (some answer) ∧
      (answer.allowed = true ∨ e.auditOnly = true))

private theorem judge_allows {input : Input}
    (returned : (judge env pi tid input).Returns e result e') :
    result.allowed = true ↔ Decides env e input := by
  obtain ⟨_, _, started, returned⟩ := returns_bind.mp returned
  obtain ⟨rfl, rfl⟩ := returns_read.mp started
  unfold Decides
  split at returned
  · next present =>
    split at returned
    · exact absurd returned returns_fail
    · next err failed =>
      rw [blockAndAlert_result returned]
      simp [present, failed]
    · exact absurd returned returns_fail
    · next answer answered =>
      split at returned
      · next overruled =>
        rw [accept_result returned]
        simp_all
      · next kept =>
        split at returned
        · next allowed =>
          rw [accept_result returned]
          simp [present, answered, allowed]
        · next denied =>
          rw [block_result returned]
          simp_all
  · next absent =>
    split at returned
    · next closed =>
      rw [block_result returned]
      simp [absent, closed]
    · next fails_open =>
      rw [accept_result returned]
      simp [absent, fails_open]

/-- The country of an address, when the database knows it. -/
def countryOf (env : Env) (ip : String) : String :=
  match env.lookupCountry ip with
  | .ok country => country
  | .error _ => ""

def policyInput (env : Env) (e : Engine) (pi : PacketInfo) (input : Input) : Input :=
  if e.geoipReader then
    { input with geo := ⟨countryOf env pi.srcIP, countryOf env pi.dstIP⟩ }
  else input

theorem addCountries_result {input final : Input}
    (returned : (addCountries env pi input).Returns e final e') :
    final = policyInput env e pi input ∧ e' = e := by
  obtain ⟨_, _, started, returned⟩ := returns_bind.mp returned
  obtain ⟨rfl, rfl⟩ := returns_read.mp started
  unfold policyInput
  split at returned
  · next reader =>
    obtain ⟨src, _, first, returned⟩ := returns_bind.mp returned
    obtain ⟨known_src, rfl⟩ := returns_attempt.mp first
    obtain ⟨dst, _, second, returned⟩ := returns_bind.mp returned
    obtain ⟨known_dst, rfl⟩ := returns_attempt.mp second
    obtain ⟨rfl, rfl⟩ := returns_pure.mp returned
    rw [if_pos reader, countryOf, countryOf, known_src, known_dst]
    exact ⟨rfl, rfl⟩
  · next absent =>
    obtain ⟨rfl, rfl⟩ := returns_pure.mp returned
    rw [if_neg absent]
    exact ⟨rfl, rfl⟩

private theorem conclude_allows {input : Input}
    (returned : (conclude env pi tid input).Returns e result e') :
    result.allowed = true ↔
      listed e.threatIntel pi.srcIP = false ∧ Decides env e (policyInput env e pi input) := by
  obtain ⟨_, _, started, returned⟩ := returns_bind.mp returned
  obtain ⟨rfl, rfl⟩ := returns_read.mp started
  split at returned
  · next on_list =>
    rw [block_result returned]
    simp [on_list]
  · next unlisted =>
    obtain ⟨final, _, added, returned⟩ := returns_bind.mp returned
    obtain ⟨rfl, rfl⟩ := addCountries_result added
    rw [judge_allows returned]
    simp [unlisted]

end Judge

section Handlers

/-- The input of a packet that is admitted, as the evaluator gets it. -/
def admittedInput (env : Env) (pi : PacketInfo) (size : Nat) (e : Engine) (t : Table)
    (flow : Flow) (l : Limiter) : Input :=
  policyInput env e pi
    (builtInput env pi flow (trackRates env pi size l).1 (trackedTable env pi t))

private theorem evaluateBody_allows (returned : (evaluateBody env pi size).Returns e result e') :
    result.allowed = true ↔ ∃ t flow l, Admitted env pi size e t flow l ∧
      listed e.threatIntel pi.srcIP = false ∧
      Decides env e (admittedInput env pi size e t flow l) := by
  obtain ⟨gathered, middle, first, returned⟩ := returns_bind.mp returned
  obtain ⟨refusal, rfl, refused, none_admitted⟩ | ⟨tid, t, flow, l, admitted, rfl, rfl⟩ :=
    gather_cases first
  · obtain ⟨rfl, -⟩ := returns_pure.mp returned
    simp only [refused, Bool.false_eq_true, false_iff]
    rintro ⟨t, flow, l, admitted, -⟩
    exact none_admitted t flow l admitted
  · rw [conclude_allows returned]
    constructor
    · rintro ⟨unlisted, decides⟩
      exact ⟨t, flow, l, admitted, unlisted, decides⟩
    · rintro ⟨u, other, k, again, unlisted, decides⟩
      obtain rfl := Option.some.inj (again.table.symm.trans admitted.table)
      obtain rfl := Option.some.inj (again.tracked.symm.trans admitted.tracked)
      obtain rfl := Option.some.inj (again.limiter.symm.trans admitted.limiter)
      exact ⟨unlisted, decides⟩

private theorem evaluatePacket_returns (env : Env) (pi : PacketInfo) (size : Nat) (e : Engine) :
    ∃ result e', (evaluatePacket env pi size).Returns e result e' ∧
      (result.allowed = true →
        (evaluateBody env pi size).Returns e result e') := by
  obtain ⟨result, e', returned⟩ := recover_total
    (fun value t => ⟨_, _, returns_update_pure _ _ t⟩) (evaluateBody env pi size) e
  refine ⟨result, e', returned, fun allowed => ?_⟩
  rcases returns_recover.mp returned with done | ⟨value, t, -, handled⟩
  · exact done
  · obtain ⟨_, _, -, handled⟩ := returns_bind.mp handled
    obtain ⟨rfl, -⟩ := returns_pure.mp handled
    exact absurd allowed nofun

structure Passed (d : Decoder) (env : Env) (e : Engine) (payload : Option Bytes) (raw : Bytes)
    (pi : PacketInfo) (t : Table) (flow : Flow) (l : Limiter) : Prop where
  payload : payload = some raw
  parsed : ParsePacket d raw = .ok pi
  admitted : Admitted env pi raw.length e t flow l
  unlisted : listed e.threatIntel pi.srcIP = false
  quiet : ∃ result e', (evaluateBody env pi raw.length).Returns e result e'
  decides : Decides env e (admittedInput env pi raw.length e t flow l)

private theorem handleBody_zero {d : Decoder} {payload : Option Bytes} :
    (∃ e', (handleBody d env payload).Returns e 0 e') ↔
      ∃ raw pi t flow l, Passed d env e payload raw pi t flow l := by
  constructor
  · rintro ⟨e', returned⟩
    unfold handleBody at returned
    split at returned
    · obtain ⟨_, _, -, returned⟩ := returns_bind.mp returned
      exact absurd (returns_pure.mp returned).1 nofun
    · next raw =>
      split at returned
      · obtain ⟨_, _, -, returned⟩ := returns_bind.mp returned
        exact absurd (returns_pure.mp returned).1 nofun
      · next pi parsed =>
        obtain ⟨result, middle, evaluated, returned⟩ := returns_bind.mp returned
        split at returned
        · next allowed =>
          obtain ⟨again, last, returns, quiet⟩ := evaluatePacket_returns env pi raw.length e
          obtain ⟨rfl, rfl⟩ := returns.unique evaluated
          have body := quiet allowed
          obtain ⟨t, flow, l, admitted, unlisted, decides⟩ := (evaluateBody_allows body).mp allowed
          exact ⟨raw, pi, t, flow, l, rfl, parsed, admitted, unlisted, ⟨_, _, body⟩, decides⟩
        · obtain ⟨_, _, -, returned⟩ := returns_bind.mp returned
          exact absurd (returns_pure.mp returned).1 nofun
  · rintro ⟨raw, pi, t, flow, l, passed⟩
    obtain ⟨result, e', body⟩ := passed.quiet
    have allowed : result.allowed = true := (evaluateBody_allows body).mpr
      ⟨t, flow, l, passed.admitted, passed.unlisted, passed.decides⟩
    refine ⟨e', ?_⟩
    unfold handleBody
    rw [passed.payload]
    dsimp only
    rw [passed.parsed]
    refine returns_bind.mpr ⟨result, e', body.recovered _, ?_⟩
    rw [if_pos allowed]
    exact returns_pure.mpr ⟨rfl, rfl⟩

private theorem handleBody_le_one {d : Decoder} {payload : Option Bytes} {decision : Nat}
    (returned : (handleBody d env payload).Returns e decision e') : decision ≤ 1 := by
  unfold handleBody at returned
  split at returned
  · obtain ⟨_, _, -, returned⟩ := returns_bind.mp returned
    exact (returns_pure.mp returned).1.ge
  · split at returned
    · obtain ⟨_, _, -, returned⟩ := returns_bind.mp returned
      exact (returns_pure.mp returned).1.ge
    · obtain ⟨_, _, -, returned⟩ := returns_bind.mp returned
      split at returned
      · obtain ⟨rfl, -⟩ := returns_pure.mp returned
        exact Nat.zero_le 1
      · obtain ⟨_, _, -, returned⟩ := returns_bind.mp returned
        exact (returns_pure.mp returned).1.ge

theorem packetHandler_zero (d : Decoder) (env : Env) (e : Engine) (payload : Option Bytes) :
    ∃ decision e', (packetHandler d env payload).Returns e decision e' ∧ decision ≤ 1 ∧
      (decision = 0 ↔ ∃ raw pi t flow l, Passed d env e payload raw pi t flow l) := by
  obtain ⟨decision, e', returned⟩ := recover_total
    (fun value t => ⟨_, _, returns_update_pure _ _ t⟩) (handleBody d env payload) e
  have cases : (handleBody d env payload).Returns e decision e' ∨ decision = 1 := by
    rcases returns_recover.mp returned with done | ⟨value, t, -, handled⟩
    · exact .inl done
    · obtain ⟨_, _, -, handled⟩ := returns_bind.mp handled
      exact .inr (returns_pure.mp handled).1.symm
  refine ⟨decision, e', returned, ?_, ?_⟩
  · rcases cases with done | rfl
    · exact handleBody_le_one done
    · exact le_rfl
  rw [← handleBody_zero]
  constructor
  · rintro rfl
    exact ⟨e', cases.resolve_right nofun⟩
  · rintro ⟨last, done⟩
    exact (returned.unique (done.recovered _)).1

private theorem setVerdict_verdicts (env : Env) (id : UInt32) (verdict : Verdict) (q : Queue) :
    (setVerdict env id verdict q).2.verdicts = q.verdicts ++ [(id, verdict)] := by
  have sent : (update fun q : Queue => { q with verdicts := q.verdicts ++ [(id, verdict)] }).Returns
      q () { q with verdicts := q.verdicts ++ [(id, verdict)] } := returns_update.mpr rfl
  rw [setVerdict, sent.then]
  cases env.setVerdict id verdict <;> rfl

private theorem handleQueuePacket_verdicts (d : Decoder) (env : Env) (e : Engine)
    (sent : List (UInt32 × Verdict)) (id : UInt32) (payload : Option Bytes)
    {decision : Nat} (handled : (packetHandler d env payload).Returns e decision e') :
    (handleQueuePacket d env ⟨some id, payload⟩ ⟨e, sent⟩).2.verdicts =
      sent ++ [(id, if decision ≠ 0 then .nfDrop else .nfAccept)] := by
  have decided : (focus Queue.engine (fun q e => { q with engine := e })
      (packetHandler d env payload)).Returns ⟨e, sent⟩ decision ⟨e', sent⟩ :=
    returns_focus.mpr ⟨e', handled, rfl⟩
  change ((focus Queue.engine (fun q e => { q with engine := e })
    (packetHandler d env payload) >>= fun decision =>
      setVerdict env id (if decision ≠ 0 then .nfDrop else .nfAccept)) ⟨e, sent⟩).2.verdicts = _
  rw [decided.then]
  exact setVerdict_verdicts env id _ _

end Handlers

/-- Fail-closed verdict. In every configuration and state, whatever the evaluator, the
audit logger and the capture writer do, the hook hands the kernel one verdict for the
packet id. It is an accept exactly when the payload parses, the connection table gives a
flow, the filter allows the MAC address, the limits are not exceeded, the source is not
listed, nothing panicked, and the evaluator is missing in a fail-open engine or answered
with an allow or in audit-only mode. -/
theorem verdict_fail_closed (d : Decoder) (env : Env) (e : Engine)
    (sent : List (UInt32 × Verdict)) (id : UInt32) (payload : Option Bytes) :
    ∃ verdict, (handleQueuePacket d env ⟨some id, payload⟩ ⟨e, sent⟩).2.verdicts =
        sent ++ [(id, verdict)] ∧
      (verdict = .nfAccept ↔ ∃ raw pi t flow l,
        payload = some raw ∧ ParsePacket d raw = .ok pi ∧
        e.conntrack = some t ∧ (trackFlow env pi t).1 = some flow ∧
        (∀ f, e.l2Filter = some f → (f.MACAllowed pi.srcMAC).1 = true) ∧
        e.ratelimit = some l ∧ exceeds (trackRates env pi raw.length l) = false ∧
        (∀ bl, e.threatIntel = some bl → bl.Contains pi.srcIP = false) ∧
        (∃ result e', (evaluateBody env pi raw.length).Returns e result e') ∧
        ((e.eval = false ∧ e.failClosed = false) ∨
          (e.eval = true ∧ ∃ answer,
            env.evaluate (admittedInput env pi raw.length e t flow l) =
              .returned (some answer) ∧
            (answer.allowed = true ∨ e.auditOnly = true)))) := by
  obtain ⟨decision, e', handled, -, zero⟩ := packetHandler_zero d env e payload
  refine ⟨_, handleQueuePacket_verdicts d env e sent id payload handled, ?_⟩
  have accepted : (if decision ≠ 0 then Verdict.nfDrop else .nfAccept) = .nfAccept ↔
      decision = 0 := by
    by_cases same : decision = 0 <;> simp [same]
  rw [accepted, zero]
  constructor
  · rintro ⟨raw, pi, t, flow, l, passed⟩
    obtain ⟨table, tracked, mac, limiter, below⟩ := passed.admitted
    exact ⟨raw, pi, t, flow, l, passed.payload, passed.parsed, table, tracked,
      macRefusal_eq_none.mp mac, limiter, below, listed_eq_false.mp passed.unlisted,
      passed.quiet, passed.decides⟩
  · rintro ⟨raw, pi, t, flow, l, given, parsed, table, tracked, mac, limiter, below, unlisted,
      quiet, decides⟩
    exact ⟨raw, pi, t, flow, l, given, parsed,
      ⟨table, tracked, macRefusal_eq_none.mpr mac, limiter, below⟩,
      listed_eq_false.mpr unlisted, quiet, decides⟩

end L3Firewall.Pipeline.FailClosed
