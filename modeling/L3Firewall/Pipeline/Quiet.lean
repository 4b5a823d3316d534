/- Pipeline/Quiet
   source: internal/engine/engine.go
   digest: Packets that pass an engine of which no other component speaks up. -/

import L3Firewall.Conntrack.Accounting
import L3Firewall.Conntrack.RateHistory
import L3Firewall.Opa.Denials
import L3Firewall.Packet.Fragments
import L3Firewall.Pipeline.FailClosed
import L3Firewall.Ratelimit.Spacing

set_option autoImplicit false
set_option relaxedAutoImplicit false

namespace L3Firewall.Pipeline.Quiet

open Foundation.FiniteMap (RangeOrder)
open Foundation.Recover
open Foundation.Recover.Action
open Foundation.Rego (Builtins)
open Conntrack.FlowTable
open Conntrack.RateHistory (Bounded)
open Ratelimit.Buckets (Limiter newLimiter)
open Ratelimit.Spacing (Spaced)
open Packet.Parser
open Packet.Fragments (Hidden)
open Opa.Policy (shipped)
open Opa.Decision (Denied)
open Opa.Denials
open Opa.Evaluator (Result Evaluate decisionQuery evaluate_decisionQuery)
open Handlers
open FailClosed

section Accepts

variable {env : Env} {pi : PacketInfo} {size : Nat} {e : Engine} {t : Table} {flow : Flow}
  {l : Limiter} {bytes : List UInt8}

theorem gather_admitted (traced : env.traceBytes = .ok bytes)
    (admitted : Admitted env pi size e t flow l) :
    ∃ tid, (gather env pi size).Returns e
      (.built tid (builtInput env pi flow (trackRates env pi size l).1 (trackedTable env pi t)))
      (gatheredEngine env pi size e t l) := by
  obtain ⟨table, tracked, mac, limiter, below⟩ := admitted
  refine ⟨String.ofList (bytes.flatMap hexDigits), ?_⟩
  have trace : (newTraceID env).Returns e.countProcessed
      (String.ofList (bytes.flatMap hexDigits)) e.countProcessed := by
    rw [newTraceID, traced]
    exact returns_pure.mpr ⟨rfl, rfl⟩
  refine returns_bind.mpr ⟨(), _, returns_update.mpr rfl, ?_⟩
  refine returns_bind.mpr ⟨_, _, trace, ?_⟩
  refine returns_bind.mpr ⟨_, _, returns_read.mpr ⟨rfl, rfl⟩, ?_⟩
  refine returns_bind.mpr ⟨t, _, returns_deref.mpr ⟨table, rfl⟩, ?_⟩
  refine returns_bind.mpr ⟨(), _, returns_update.mpr rfl, ?_⟩
  rw [tracked]
  refine returns_bind.mpr ⟨(), _, returns_update.mpr rfl, ?_⟩
  rw [show macRefusal e.countProcessed.l2Filter pi.srcMAC = none from mac]
  refine returns_bind.mpr ⟨_, _, returns_read.mpr ⟨rfl, rfl⟩, ?_⟩
  refine returns_bind.mpr ⟨l, _, returns_deref.mpr ⟨limiter, rfl⟩, ?_⟩
  refine returns_bind.mpr ⟨(), _, returns_update.mpr rfl, ?_⟩
  rw [if_neg (Bool.eq_false_iff.mp below)]
  exact returns_bind.mpr ⟨_, _, returns_deref.mpr ⟨rfl, rfl⟩, returns_pure.mpr ⟨rfl, rfl⟩⟩

/-- An engine that enforces its policy and has no audit log, no country database, no
blocklist and no MAC filter. -/
structure Bare (e : Engine) : Prop where
  eval : e.eval = true
  auditOnly : e.auditOnly = false
  auditLogger : e.auditLogger = false
  geoipReader : e.geoipReader = false
  threatIntel : e.threatIntel = none
  l2Filter : e.l2Filter = none

private theorem Bare.gathered (bare : Bare e) : Bare (gatheredEngine env pi size e t l) :=
  ⟨bare.eval, bare.auditOnly, bare.auditLogger, bare.geoipReader, bare.threatIntel, bare.l2Filter⟩

private theorem Bare.counted (bare : Bare e) : Bare e.countAllowed :=
  ⟨bare.eval, bare.auditOnly, bare.auditLogger, bare.geoipReader, bare.threatIntel, bare.l2Filter⟩

private theorem accept_returns (bare : Bare e) (tid : String) (type : EventType)
    (reason : Opa.Evaluator.Text) (result : Result) :
    (accept env pi tid type reason result).Returns e result e.countAllowed := by
  refine returns_bind.mpr ⟨(), _, returns_update.mpr rfl, ?_⟩
  have silent : (logAudit env type tid pi reason).Returns e.countAllowed () e.countAllowed := by
    refine returns_bind.mpr ⟨_, _, returns_read.mpr ⟨rfl, rfl⟩, ?_⟩
    rw [if_neg (by simp [bare.counted.auditLogger])]
    exact returns_pure.mpr ⟨rfl, rfl⟩
  exact returns_bind.mpr ⟨(), _, silent, returns_pure.mpr ⟨rfl, rfl⟩⟩

theorem handler_accepts {d : Decoder} {raw : Bytes} (bare : Bare e)
    (traced : env.traceBytes = .ok bytes) (parsed : ParsePacket d raw = .ok pi)
    (admitted : Admitted env pi raw.length e t flow l) {answer : Result}
    (answered : env.evaluate (builtInput env pi flow (trackRates env pi raw.length l).1
      (trackedTable env pi t)) = .returned (some answer))
    (allowed : answer.allowed = true) :
    (packetHandler d env (some raw)).Returns e 0
      (gatheredEngine env pi raw.length e t l).countAllowed := by
  obtain ⟨tid, built⟩ := gather_admitted traced admitted
  have bare' : Bare (gatheredEngine env pi raw.length e t l) := bare.gathered
  have judged : (judge env pi tid (builtInput env pi flow (trackRates env pi raw.length l).1
      (trackedTable env pi t))).Returns (gatheredEngine env pi raw.length e t l) answer
      (gatheredEngine env pi raw.length e t l).countAllowed := by
    refine returns_bind.mpr ⟨_, _, returns_read.mpr ⟨rfl, rfl⟩, ?_⟩
    rw [if_pos bare'.eval, answered]
    dsimp only
    rw [if_neg (by simp [allowed]), if_pos allowed]
    exact accept_returns bare' tid _ _ _
  have concluded : (conclude env pi tid (builtInput env pi flow
      (trackRates env pi raw.length l).1 (trackedTable env pi t))).Returns
      (gatheredEngine env pi raw.length e t l) answer
      (gatheredEngine env pi raw.length e t l).countAllowed := by
    refine returns_bind.mpr ⟨_, _, returns_read.mpr ⟨rfl, rfl⟩, ?_⟩
    rw [if_neg (by rw [bare'.threatIntel]; exact nofun)]
    refine returns_bind.mpr ⟨_, _, ?_, judged⟩
    refine returns_bind.mpr ⟨_, _, returns_read.mpr ⟨rfl, rfl⟩, ?_⟩
    rw [if_neg (by simp [bare'.geoipReader])]
    exact returns_pure.mpr ⟨rfl, rfl⟩
  have body : (evaluateBody env pi raw.length).Returns e answer
      (gatheredEngine env pi raw.length e t l).countAllowed :=
    returns_bind.mpr ⟨_, _, built, concluded⟩
  refine Returns.recovered ?_ _
  unfold handleBody
  dsimp only
  rw [parsed]
  refine returns_bind.mpr ⟨answer, _, body.recovered _, ?_⟩
  rw [if_pos allowed]
  exact returns_pure.mpr ⟨rfl, rfl⟩

end Accepts

section Tracking

variable {env : Env} {pi : PacketInfo} {t : Table} {k : Nat}

theorem trackFlow_looked (env : Env) (pi : PacketInfo) (t : Table) :
    ∃ phase, Looked t env.flowOrder env.flowClock
      (flowKey pi.srcIP pi.dstIP pi.protocol pi.srcPort pi.dstPort) phase (trackFlow env pi t) := by
  unfold trackFlow
  split
  · exact ⟨_, updateTCPState_looked t _ _ _ _ _ _ _ _⟩
  · exact ⟨_, lookupOrCreate_looked t _ _ _ _ _ _ _⟩

theorem trackFlow_some (env : Env) (pi : PacketInfo) (unlimited : t.cfg.maxFlowsPerSrcIP = 0) :
    ∃ flow, (trackFlow env pi t).1 = some flow := by
  obtain ⟨phase, looked⟩ := trackFlow_looked env pi t
  generalize trackFlow env pi t = r at looked
  cases looked with
  | hit found updated => exact ⟨_, rfl⟩
  | refused absent limited => simp [Table.reachedFlowLimitLocked, unlimited] at limited
  | created absent below made => exact ⟨_, rfl⟩

theorem trackedTable_cfg (env : Env) (pi : PacketInfo) (t : Table) :
    (trackedTable env pi t).cfg = t.cfg := by
  obtain ⟨phase, looked⟩ := trackFlow_looked env pi t
  have same : (trackFlow env pi t).2.cfg = t.cfg := Conntrack.Accounting.looked_cfg looked
  unfold trackedTable trackPort
  split
  · exact (recordDestPort_cfg _ _ _).trans same
  · exact same

private theorem trackedTable_bounded (bounded : Bounded k t) :
    Bounded (k + 1) (trackedTable env pi t) := by
  obtain ⟨phase, looked⟩ := trackFlow_looked env pi t
  have tracked : Bounded (k + 1) (trackFlow env pi t).2 :=
    Conntrack.RateHistory.looked_bounded bounded looked
  unfold trackedTable trackPort
  split
  · exact Conntrack.RateHistory.recordDestPort_bounded tracked _ _
  · exact tracked

end Tracking

section Runs

/-- Ten milliseconds. It is not unfolded by accident: unification would count it down. -/
@[irreducible] def gap : Nat := 10000000

private theorem gap_eq : gap = 10000000 := by
  unfold gap
  rfl

/-- Surroundings in which nothing fails and the shipped policy is loaded. The two calls of
the rate limiter lie a gap apart. -/
def quietEnv (b : Builtins) (now : Nat) : Env where
  traceBytes := .ok [0, 0, 0, 0]
  flowOrder := .stored
  flowClock := ⟨now, now, now⟩
  rateOrder := .stored
  rateTime := now
  portOrder := .stored
  portTime := now + gap
  connRateTime := now + gap
  inputTime := now + gap
  blockTime := now + gap
  auditTime := now + gap
  alertTime := now + gap
  sendTime := now + gap
  lookupCountry := fun _ => .ok ""
  evaluate := Evaluate (some (decisionQuery b shipped))
  auditLog := fun _ => .returned ()
  alert := fun _ _ => .ok ()
  writeBlock := fun _ => .returned ()
  setVerdict := fun _ _ => .returned ()

/-- An engine as it is made with the default table, without limits and extras. -/
def freshEngine : Engine :=
  new true (some (newTable defaultConfig)) (some (newLimiter 0 0)) true false false false false none
    false none

/-- After at most so many packets: no limits are set, the sources have few connections and
the rates are low. -/
structure Calm (k now : Nat) (e : Engine) : Prop where
  bare : Bare e
  table : ∃ t, e.conntrack = some t ∧ t.cfg.maxFlowsPerSrcIP = 0 ∧ Bounded k t
  limiter : ∃ l, e.ratelimit = some l ∧ l.alpha = 3 / 10 ∧ l.ppsLimit = 0 ∧ l.bpsLimit = 0 ∧
    Spaced l 100 gap now

theorem quietEnv_evaluate (b : Builtins) (now : Nat) :
    (quietEnv b now).evaluate = Evaluate (some (decisionQuery b shipped)) := by
  simp only [quietEnv]

theorem quietEnv_allows {b : Builtins} {i : Opa.Document.Input} (now : Nat)
    (passes : ¬ Denied b shipped i) :
    ∃ answer, (quietEnv b now).evaluate i = .returned (some answer) ∧ answer.allowed = true := by
  obtain ⟨reason, answered⟩ := evaluate_decisionQuery b shipped i
  refine ⟨_, (congrFun (quietEnv_evaluate b now) i).trans answered, ?_⟩
  rw [decide_eq_false passes]
  rfl

theorem freshEngine_calm (now : Nat) : Calm 0 now freshEngine where
  bare := ⟨rfl, rfl, rfl, rfl, rfl, rfl⟩
  table := ⟨newTable defaultConfig, rfl, rfl, Conntrack.RateHistory.newTable_bounded defaultConfig⟩
  limiter := ⟨newLimiter 0 0, rfl, rfl, rfl, rfl,
    Ratelimit.Spacing.newLimiter_spaced 0 0 100 gap now⟩

variable {b : Builtins} {k now : Nat} {e : Engine} {d : Decoder} {raw : Bytes} {pi : PacketInfo}

theorem trackRates_calm {l : Limiter} (b : Builtins) (pi : PacketInfo) (size : Nat)
    (alpha : l.alpha = 3 / 10) (pps : l.ppsLimit = 0) (bps : l.bpsLimit = 0)
    (spaced : Spaced l 100 gap now) :
    (trackRates (quietEnv b now) pi size l).1.pps ≤ 100 ∧
      (trackRates (quietEnv b now) pi size l).1.portPPS ≤ 100 ∧
      exceeds (trackRates (quietEnv b now) pi size l) = false ∧
      (trackRates (quietEnv b now) pi size l).2.alpha = 3 / 10 ∧
      (trackRates (quietEnv b now) pi size l).2.ppsLimit = 0 ∧
      (trackRates (quietEnv b now) pi size l).2.bpsLimit = 0 ∧
      Spaced (trackRates (quietEnv b now) pi size l).2 100 gap (now + 2 * gap) := by
  have positive : 0 < gap := by
    rw [gap_eq]
    norm_num
  have enough : (1000000000 : ℚ) ≤ 100 * (gap : ℚ) := by
    rw [gap_eq]
    norm_num
  obtain ⟨ip, spaced', alpha', pps', bps'⟩ := Ratelimit.Spacing.track_spaced .stored
    (Ratelimit.Buckets.ipKey pi.srcIP) size (by rw [alpha]; norm_num) (by rw [alpha]; norm_num)
    (by norm_num) positive enough spaced
  obtain ⟨port, spaced'', alpha'', pps'', bps''⟩ := Ratelimit.Spacing.track_spaced .stored
    (Ratelimit.Buckets.portKey pi.srcIP pi.dstPort) size (by rw [alpha', alpha]; norm_num)
    (by rw [alpha', alpha]; norm_num) (by norm_num) positive enough spaced'
  have no_pps := pps''.trans (pps'.trans pps)
  have no_bps := bps''.trans (bps'.trans bps)
  refine ⟨ip, port, ?_, alpha''.trans (alpha'.trans alpha), no_pps, no_bps, ?_⟩
  · have unlimited (m : Limiter) (p q : ℚ) (first : m.ppsLimit = 0) (second : m.bpsLimit = 0) :
        m.ExceedsLimit p q = false := by
      simp [Limiter.ExceedsLimit, first, second]
    exact unlimited _ _ _ no_pps no_bps
  · rw [Nat.two_mul, ← Nat.add_assoc]
    exact spaced''

private theorem hidden_harmless {env : Env} {t : Table} {r : Rates} (hidden : Hidden pi)
    (flow : Flow)
    (pps : r.pps ≤ 100) (portPPS : r.portPPS ≤ 100)
    (newConns : t.newConnectionRate pi.srcIP env.connRateTime ≤ 1000) :
    Harmless (builtInput env pi flow r t) where
  source := hidden.source
  destination := hidden.destination
  protocol := by
    change pi.protocol ≠ "ICMP"
    rcases hidden.protocol with same | same | same <;> rw [same] <;> decide
  srcPort := hidden.srcPort
  dstPort := hidden.dstPort
  tcpFlags := hidden.tcpFlags
  unmarked := hidden.unmarked
  pps := pps.trans (by norm_num)
  portPPS := portPPS.trans (by norm_num)
  newConns := newConns
  country := rfl

private theorem Calm.step (networks : AllNetworks b) (calm : Calm k now e) (few : k < 10000)
    (parsed : ParsePacket d raw = .ok pi) (hidden : Hidden pi) :
    ∃ e', (packetHandler d (quietEnv b now) (some raw)).Returns e 0 e' ∧
      Calm (k + 1) (now + 2 * gap) e' := by
  obtain ⟨t, table, unlimited, bounded⟩ := calm.table
  obtain ⟨l, limiter, alpha, pps, bps, spaced⟩ := calm.limiter
  obtain ⟨flow, tracked⟩ := trackFlow_some (quietEnv b now) pi unlimited
  obtain ⟨low, portLow, below, alpha', pps', bps', spaced'⟩ :=
    trackRates_calm b pi raw.length alpha pps bps spaced
  have admitted : Admitted (quietEnv b now) pi raw.length e t flow l :=
    ⟨table, tracked, by rw [calm.bare.l2Filter]; rfl, limiter, below⟩
  have bounded' : Bounded (k + 1) (trackedTable (quietEnv b now) pi t) :=
    trackedTable_bounded bounded
  have slow : (trackedTable (quietEnv b now) pi t).newConnectionRate pi.srcIP
      (quietEnv b now).connRateTime ≤ 1000 := by
    refine (Conntrack.RateHistory.newConnectionRate_le bounded' _ _).trans ?_
    have count : ((k + 1 : Nat) : ℚ) ≤ 10000 := by exact_mod_cast few
    linarith
  have harmless : Harmless (builtInput (quietEnv b now) pi flow
      (trackRates (quietEnv b now) pi raw.length l).1 (trackedTable (quietEnv b now) pi t)) :=
    hidden_harmless hidden flow low portLow slow
  obtain ⟨answer, answered, allowed⟩ := quietEnv_allows now (not_denied networks harmless)
  have traced : (quietEnv b now).traceBytes = .ok [0, 0, 0, 0] := rfl
  have passes := handler_accepts calm.bare traced parsed admitted answered allowed
  refine ⟨_, passes, calm.bare.gathered.counted, ⟨_, rfl, ?_, bounded'⟩,
    ⟨_, rfl, alpha', pps', bps', spaced'⟩⟩
  rw [trackedTable_cfg]
  exact unlimited

def quietly (b : Builtins) : Nat → List Bytes → List (Env × Bytes)
  | _, [] => []
  | now, raw :: rest => (quietEnv b now, raw) :: quietly b (now + 2 * gap) rest

theorem quietly_payloads (b : Builtins) (now : Nat) (raws : List Bytes) :
    (quietly b now raws).map Prod.snd = raws := by
  induction raws generalizing now with
  | nil => rfl
  | cons raw rest ih => rw [quietly, List.map_cons, ih]

theorem Calm.run (networks : AllNetworks b) (raws : List Bytes)
    (hide : ∀ raw ∈ raws, ∃ pi, ParsePacket d raw = .ok pi ∧ Hidden pi) (calm : Calm k now e)
    (few : k + raws.length ≤ 10000) :
    ∀ decision ∈ decisions d (quietly b now raws) e, decision = .ok 0 := by
  induction raws generalizing k now e with
  | nil => exact fun decision member => absurd member List.not_mem_nil
  | cons raw rest ih =>
      rw [List.length_cons] at few
      obtain ⟨pi, parsed, hidden⟩ := hide raw List.mem_cons_self
      obtain ⟨e', passed, calm'⟩ := calm.step networks (by omega) parsed hidden
      have later := ih (fun r member => hide r (List.mem_cons_of_mem _ member)) calm' (by omega)
      intro decision member
      rw [quietly, decisions_cons, show packetHandler d (quietEnv b now) (some raw) e = (.ok 0, e')
        from passed] at member
      rcases List.mem_cons.mp member with rfl | member
      · rfl
      · exact later decision member

end Runs

end L3Firewall.Pipeline.Quiet
