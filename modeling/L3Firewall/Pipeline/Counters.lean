/- Pipeline/Counters
   source: internal/engine/engine.go
   digest: The packet counters of a run are exact if and only if nothing in it panicked. -/

import L3Firewall.Pipeline.Course
import L3Firewall.Pipeline.Evasion
import Mathlib.Algebra.Group.Prod

set_option autoImplicit false
set_option relaxedAutoImplicit false

namespace L3Firewall.Pipeline.Counters

open Foundation.Recover (Reply)
open Conntrack.FlowTable (Table Flow)
open Packet.Parser (Bytes Decoder PacketInfo ParsePacket)
open Opa.Document (Input)
open Opa.Evaluator (Text Result)
open Handlers
open Course

variable {d : Decoder} {env : Env} {pi : PacketInfo} {size : Nat} {tid : String} {e : Engine}
  {raw : Bytes} {payload : Option Bytes}

def tally (e : Engine) : Int × Int × Int :=
  (e.packetsProcessed, e.packetsAllowed, e.packetsBlocked)

/-- What one packet should add, by whether it is let pass. -/
def share (allowed : Bool) : Int × Int × Int := if allowed then (1, 1, 0) else (1, 0, 1)

section Questions

/-- What the handling of a packet needs from elsewhere: a component of the engine, which may be
nil, or a reply of its surroundings. -/
inductive Question
  | trace
  | component (present : Bool)
  | country (ip : String)
  | evaluate (input : Input)
  | call (call : Call)

def panics {α : Type} : Reply α → Bool
  | .returned _ | .failed _ => false
  | .panicked _ => true

/-- The reply is a panic, or a nil pointer that is followed. -/
def Question.fails (env : Env) : Question → Bool
  | .trace => !env.traceBytes.isOk
  | .component present => !present
  | .country ip => !(env.lookupCountry ip).isOk
  | .evaluate input =>
      match env.evaluate input with
      | .panicked _ | .returned none => true
      | .failed _ | .returned (some _) => false
  | .call (.log event) => panics (env.auditLog event)
  | .call (.send type message _ _) => !(env.alert type message).isOk
  | .call (.writeBlock raw) => panics (env.writeBlock raw)

def countriesAsked (env : Env) (e : Engine) (pi : PacketInfo) : List Question :=
  if e.geoipReader then
    match env.lookupCountry pi.srcIP with
    | .error _ => [.country pi.srcIP]
    | .ok _ => [.country pi.srcIP, .country pi.dstIP]
  else []

def conclusionAsked (env : Env) (e : Engine) (pi : PacketInfo) (input : Input) : List Question :=
  if listed e.threatIntel pi.srcIP then []
  else countriesAsked env e pi ++
    match withCountries env e pi input with
    | .error _ => []
    | .ok input => if e.eval then [.evaluate input] else []

def ratesAsked (env : Env) (pi : PacketInfo) (size : Nat) (flow : Flow) (t : Table) (e : Engine) :
    List Question :=
  .component e.ratelimit.isSome ::
    match e.ratelimit with
    | none => []
    | some l =>
        if exceeds (trackRates env pi size l) then []
        else conclusionAsked env e pi (builtInput env pi flow (trackRates env pi size l).1 t)

def flowAsked (env : Env) (pi : PacketInfo) (size : Nat) (e : Engine) : List Question :=
  .component e.conntrack.isSome ::
    match e.conntrack with
    | none => []
    | some t =>
        match (trackFlow env pi t).1 with
        | none => []
        | some flow =>
            match macRefusal e.l2Filter pi.srcMAC with
            | some _ => []
            | none => ratesAsked env pi size flow (trackedTable env pi t) e

def courseAsked (env : Env) (pi : PacketInfo) (size : Nat) (e : Engine) : List Question :=
  .trace :: match traceID env with
    | .error _ => []
    | .ok _ => flowAsked env pi size e

/-- What is asked for a payload, in order: first the evaluation's own questions, then the calls
that it is reported and captured with. -/
def asked (d : Decoder) (env : Env) (payload : Option Bytes) (e : Engine) : List Question :=
  match payload with
  | none => []
  | some raw =>
      match ParsePacket d raw with
      | .error _ => []
      | .ok pi => courseAsked env pi raw.length e ++ (made d env payload e).map .call

/-- Something that was asked for the payload failed. -/
def Panicked (d : Decoder) (env : Env) (payload : Option Bytes) (e : Engine) : Prop :=
  (asked d env payload e).any (Question.fails env) = true

def Ending.isPanic : Ending → Bool
  | .panicked _ => true
  | .blocked _ _ _ | .accepted _ _ _ _ => false

private theorem judgement_isPanic (input : Input) : Ending.isPanic (judgement env e tid input) =
    (if e.eval then [Question.evaluate input] else []).any (Question.fails env) := by
  unfold judgement
  split
  · simp only [List.any_cons, List.any_nil, Bool.or_false, Question.fails]
    cases env.evaluate input with
    | panicked value => rfl
    | failed err => rfl
    | returned answer =>
        cases answer with
        | none => rfl
        | some result =>
            dsimp only
            split
            · rfl
            · split
              · rfl
              · rfl
  · split
    · rfl
    · rfl

private theorem conclusion_isPanic (input : Input) :
    Ending.isPanic (conclusion env e pi tid input) =
      (conclusionAsked env e pi input).any (Question.fails env) := by
  unfold conclusion conclusionAsked
  split
  · rfl
  · rw [List.any_append]
    unfold withCountries countriesAsked
    by_cases geo : e.geoipReader = true
    · rw [if_pos geo, if_pos geo]
      cases src : env.lookupCountry pi.srcIP with
      | error value => simp [Question.fails, src, Ending.isPanic, Except.isOk, Except.toBool]
      | ok first =>
          cases dst : env.lookupCountry pi.dstIP with
          | error value => simp [Question.fails, dst, Ending.isPanic, Except.isOk, Except.toBool]
          | ok second =>
              simp only [List.any_cons, List.any_nil, Question.fails, src, dst, Except.isOk,
                Except.toBool, Bool.not_true, Bool.or_false, Bool.false_or]
              exact judgement_isPanic _
    · rw [if_neg geo, if_neg geo, List.any_nil, Bool.false_or]
      exact judgement_isPanic _

private theorem courseRates_isPanic (flow : Flow) (t : Table) :
    Ending.isPanic (courseRates env pi size tid flow t e).2 =
      (ratesAsked env pi size flow t e).any (Question.fails env) := by
  unfold courseRates ratesAsked
  cases e.ratelimit with
  | none => rfl
  | some l =>
      simp only [List.any_cons, Question.fails, Option.isSome_some, Bool.not_true, Bool.false_or]
      split
      · rfl
      · exact conclusion_isPanic _

private theorem courseFlow_isPanic : Ending.isPanic (courseFlow env pi size tid e).2 =
    (flowAsked env pi size e).any (Question.fails env) := by
  unfold courseFlow flowAsked
  cases e.conntrack with
  | none => rfl
  | some t =>
      simp only [List.any_cons, Question.fails, Option.isSome_some, Bool.not_true, Bool.false_or]
      cases (trackFlow env pi t).1 with
      | none => rfl
      | some flow =>
          dsimp only
          cases macRefusal e.l2Filter pi.srcMAC with
          | some reason => rfl
          | none => exact courseRates_isPanic flow _

private theorem course_isPanic (env : Env) (pi : PacketInfo) (size : Nat) (e : Engine) :
    Ending.isPanic (course env pi size e).2 =
      (courseAsked env pi size e).any (Question.fails env) := by
  unfold course courseAsked traceID
  rw [List.any_cons]
  cases traced : env.traceBytes with
  | error err => simp [Question.fails, traced, Ending.isPanic, Except.isOk, Except.toBool]
  | ok bytes =>
      simp only [Question.fails, traced, Except.isOk, Except.toBool, Bool.not_true, Bool.false_or]
      exact courseFlow_isPanic

end Questions

section Calls

def callsFail (env : Env) (calls : List Call) : Bool :=
  (calls.map Question.call).any (Question.fails env)

private theorem callsFail_append (first second : List Call) :
    callsFail env (first ++ second) = (callsFail env first || callsFail env second) := by
  unfold callsFail
  rw [List.map_append, List.any_append]

private theorem isOk_panicOf {α : Type} (reply : Reply α) :
    (panicOf reply).isOk = !panics reply := by
  cases reply with
  | returned _ => rfl
  | failed _ => rfl
  | panicked value => rfl

private theorem isOk_logged (env : Env) (e : Engine) (event : AuditEvent) :
    (logged env e event).isOk = !callsFail env (logCalls e event) := by
  unfold logged logCalls
  split
  · simp [callsFail, Question.fails, isOk_panicOf]
  · rfl

private theorem isOk_alerted (env : Env) (e : Engine) (alert : Option (AlertType × Text)) :
    (alerted env e alert).isOk = !callsFail env (sendCalls env e alert) := by
  cases alert with
  | none => rfl
  | some alert =>
      unfold alerted sendCalls
      dsimp only
      split
      · simp [callsFail, Question.fails]
      · rfl

private theorem isOk_captured (env : Env) (e : Engine) (raw : Bytes) :
    (if e.pcapWriter then panicOf (env.writeBlock raw) else .ok () : Except String Unit).isOk =
      !callsFail env (captureCalls e raw) := by
  unfold captureCalls
  split
  · simp [callsFail, Question.fails, isOk_panicOf]
  · rfl

private theorem isOk_answer (ending : Ending) : (answer env pi e ending).isOk =
    !(Ending.isPanic ending || callsFail env (calls env pi e ending)) := by
  cases ending with
  | panicked value => rfl
  | blocked tid reason alert =>
      have log := isOk_logged env e (auditEvent env pi .packetBlock tid reason)
      have send := isOk_alerted env e alert
      unfold answer calls
      dsimp only
      rw [callsFail_append]
      cases said : logged env e (auditEvent env pi .packetBlock tid reason) with
      | error value =>
          rw [said] at log
          rw [(Bool.not_eq_false' _).mp log.symm]
          rfl
      | ok _ =>
          rw [said] at log
          rw [(Bool.not_eq_true' _).mp log.symm]
          dsimp only
          rw [Ending.isPanic, Bool.false_or, Bool.false_or, ← send]
          cases alerted env e alert with
          | error value => rfl
          | ok _ => rfl
  | accepted tid type reason result =>
      have log := isOk_logged env e (auditEvent env pi type tid reason)
      unfold answer calls
      dsimp only
      rw [Ending.isPanic, Bool.false_or, ← log]
      cases logged env e (auditEvent env pi type tid reason) with
      | error value => rfl
      | ok _ => rfl

theorem panicked_parsed (parsed : ParsePacket d raw = .ok pi) :
    Panicked d env (some raw) e ↔
      (answer env pi (course env pi raw.length e).1 (course env pi raw.length e).2).isOk = false ∨
        (evaluated env pi raw.length e).1.allowed = false ∧
          callsFail env (captureCalls (course env pi raw.length e).1 raw) = true := by
  unfold Panicked asked
  dsimp only
  rw [parsed]
  dsimp only
  rw [List.any_append, ← course_isPanic, made_parsed parsed]
  change (_ || callsFail env _) = true ↔ _
  rw [callsFail_append, isOk_answer, ← Bool.or_assoc, Bool.or_eq_true, Bool.not_eq_false']
  refine or_congr Iff.rfl ?_
  cases (evaluated env pi raw.length e).1.allowed with
  | true => simp [callsFail]
  | false => simp

private theorem not_panicked_dropped (dropped : asked d env payload e = []) :
    ¬ Panicked d env payload e := by
  unfold Panicked
  rw [dropped]
  exact Bool.false_ne_true

end Calls

section Handled

private theorem course_tally (env : Env) (pi : PacketInfo) (size : Nat) (e : Engine) :
    tally (course env pi size e).1 = tally e + (1, 0, 0) := by
  obtain ⟨table, limiter, same⟩ := course_engine env pi size e
  rw [same]
  simp [tally, Engine.countProcessed]

private theorem settled_tally {ending : Ending} {result : Result} (honest : Ending.Honest ending)
    (said : answer env pi e ending = .ok result) :
    tally (settled env pi e ending) =
      tally e + if result.allowed then (0, 1, 0) else (0, 0, 1) := by
  cases ending with
  | panicked value => cases said
  | blocked tid reason alert =>
      have refused := blocked_refused env pi e tid reason alert
      unfold Course.result at refused
      rw [said] at refused
      rw [if_neg (by simp [show result.allowed = false from refused])]
      simp [settled, recorded, tally, Engine.handed, Engine.recordBlock, Engine.countBlocked]
  | accepted tid type reason given =>
      have passed : result.allowed = true := by
        unfold answer at said
        dsimp only at said
        cases log : logged env e (auditEvent env pi type tid reason) with
        | error value =>
            rw [log] at said
            cases said
        | ok _ =>
            rw [log] at said
            rw [← Except.ok.inj said]
            exact honest.2
      rw [if_pos passed]
      simp [settled, recorded, tally, Engine.handed, Engine.countAllowed]

private theorem settled_processed (env : Env) (pi : PacketInfo) (e : Engine) (ending : Ending) :
    (settled env pi e ending).packetsProcessed = e.packetsProcessed := by
  cases ending with
  | panicked value => rfl
  | blocked tid reason alert => rfl
  | accepted tid type reason result => rfl

/-- A packet is counted once, by its decision, or it panicked and is counted too often. -/
def Tallied (d : Decoder) (env : Env) (payload : Option Bytes) (e : Engine) : Prop :=
  (¬ Panicked d env payload e → (handled d env payload e).1 ≤ 1 ∧
    tally (handled d env payload e).2 =
      tally e + share (decide ((handled d env payload e).1 = 0))) ∧
  (Panicked d env payload e → e.packetsProcessed + 2 ≤ (handled d env payload e).2.packetsProcessed)

private theorem tallied_dropped
    (dropped : handled d env payload e = (1, e.countProcessed.countBlocked))
    (quiet : ¬ Panicked d env payload e) : Tallied d env payload e := by
  refine ⟨fun _ => ?_, fun loud => absurd loud quiet⟩
  rw [dropped]
  exact ⟨le_rfl, by simp [tally, share, Engine.countBlocked, Engine.countProcessed]⟩

private theorem captured_tally (env : Env) (out : Engine) (raw : Bytes) :
    (callsFail env (captureCalls out raw) = false → tally (captured env raw out) = tally out) ∧
    (callsFail env (captureCalls out raw) = true →
      (captured env raw out).packetsProcessed = out.packetsProcessed + 1) ∧
    out.packetsProcessed ≤ (captured env raw out).packetsProcessed := by
  have reply := isOk_captured env out raw
  unfold captured
  cases said : (if out.pcapWriter then panicOf (env.writeBlock raw) else .ok () :
      Except String Unit) with
  | ok _ =>
      rw [said] at reply
      rw [(Bool.not_eq_true' _).mp reply.symm]
      exact ⟨fun _ => rfl, fun loud => absurd loud (by decide), le_rfl⟩
  | error value =>
      rw [said] at reply
      rw [(Bool.not_eq_false' _).mp reply.symm]
      refine ⟨fun quiet => absurd quiet (by decide), fun _ => rfl, ?_⟩
      change out.packetsProcessed ≤ out.packetsProcessed + 1
      omega

private theorem tallied_parsed (parsed : ParsePacket d raw = .ok pi) :
    Tallied d env (some raw) e := by
  have counted := course_tally env pi raw.length e
  have honest := course_honest env pi raw.length e
  have writer : captureCalls (evaluated env pi raw.length e).2 raw =
      captureCalls (course env pi raw.length e).1 raw := by
    have same := congrArg Engine.pcapWriter
      (result_same env pi (course env pi raw.length e).1 (course env pi raw.length e).2).1
    unfold captureCalls
    rw [show (evaluated env pi raw.length e).2.pcapWriter = _ from same]
    rfl
  obtain ⟨quiet, loud, least⟩ := captured_tally env (evaluated env pi raw.length e).2 raw
  rw [writer] at quiet loud
  unfold Tallied
  rw [panicked_parsed parsed, handled_parsed parsed, decision]
  unfold evaluated Course.result at *
  generalize course env pi raw.length e = final at *
  obtain ⟨reached, ending⟩ := final
  have once : reached.packetsProcessed = e.packetsProcessed + 1 := congrArg Prod.fst counted
  have before := settled_processed env pi reached ending
  dsimp only at *
  cases said : answer env pi reached ending with
  | ok result =>
      have total := settled_tally honest said
      rw [said] at quiet loud least
      dsimp only [Except.isOk, Except.toBool] at *
      cases allowed : result.allowed with
      | true =>
          rw [allowed, if_pos rfl] at total
          rw [if_pos rfl]
          refine ⟨fun _ => ⟨Nat.zero_le 1, ?_⟩, fun panicked => by simp at panicked⟩
          rw [total, counted, add_assoc]
          rfl
      | false =>
          rw [allowed, if_neg (by decide)] at total
          rw [if_neg (by decide)]
          refine ⟨fun calm => ⟨le_rfl, ?_⟩, fun panicked => ?_⟩
          · rw [quiet (by simpa using calm), total, counted, add_assoc]
            rfl
          · have twice := loud (by simpa using panicked)
            dsimp only
            omega
  | error value =>
      rw [said] at least
      dsimp only [Except.isOk, Except.toBool] at *
      rw [if_neg (by decide)]
      refine ⟨fun calm => absurd (.inl rfl) calm, fun _ => ?_⟩
      change (settled env pi reached ending).packetsProcessed + 1 ≤ _ at least
      dsimp only
      omega

private theorem handler_tallied (d : Decoder) (env : Env) (payload : Option Bytes) (e : Engine) :
    Tallied d env payload e := by
  cases payload with
  | none => exact tallied_dropped rfl (not_panicked_dropped rfl)
  | some raw =>
      cases parsed : ParsePacket d raw with
      | error err =>
          refine tallied_dropped ?_ (not_panicked_dropped ?_)
          · unfold handled
            dsimp only
            rw [parsed]
          · unfold asked
            dsimp only
            rw [parsed]
      | ok pi => exact tallied_parsed parsed

end Handled

section Runs

/-- Nothing that a packet of the run asks for fails, each in the state that the packets before it
left. -/
def Undisturbed (d : Decoder) : List (Env × Option Bytes) → Engine → Prop
  | [], _ => True
  | (env, payload) :: rest, e =>
      ¬ Panicked d env payload e ∧ Undisturbed d rest (packetHandler d env payload e).2

def decided (decision : Nat) (decisions : List (Except String Nat)) : Int :=
  (decisions.countP fun r => r.toOption == some decision : Nat)

theorem decided_cons (decision : Nat) (r : Except String Nat) (rest : List (Except String Nat)) :
    decided decision (r :: rest) =
      (if r.toOption = some decision then 1 else 0) + decided decision rest := by
  unfold decided
  rw [List.countP_cons]
  by_cases same : r.toOption = some decision
  · simp [same, Int.add_comm]
  · simp [same]

private theorem share_decided {decision : Nat} (small : decision ≤ 1) (n : Int)
    (rest : List (Except String Nat)) :
    share (decide (decision = 0)) + (n, decided 0 rest, decided 1 rest) =
      (n + 1, decided 0 (.ok decision :: rest), decided 1 (.ok decision :: rest)) := by
  rw [decided_cons, decided_cons]
  obtain rfl | rfl : decision = 0 ∨ decision = 1 := by omega
  · simp [share, Except.toOption, add_comm]
  · simp [share, Except.toOption, add_comm]

theorem run_tally (run : List (Env × Option Bytes)) (undisturbed : Undisturbed d run e) :
    tally (handleAll d run e).2 =
        tally e +
          ((run.length : Int), decided 0 (handleAll d run e).1, decided 1 (handleAll d run e).1) ∧
      (run.length : Int) = decided 0 (handleAll d run e).1 + decided 1 (handleAll d run e).1 := by
  induction run generalizing e with
  | nil => exact ⟨(add_zero (tally e)).symm, rfl⟩
  | cons packet rest ih =>
      obtain ⟨env, payload⟩ := packet
      obtain ⟨quiet, undisturbed⟩ := undisturbed
      rw [packetHandler_eq] at undisturbed
      obtain ⟨small, counted⟩ := (handler_tallied d env payload e).1 quiet
      obtain ⟨total, sum⟩ := ih undisturbed
      rw [handleAll_cons]
      dsimp only
      generalize (handled d env payload e).1 = decision at small counted ⊢
      generalize (handled d env payload e).2 = e' at counted total sum ⊢
      have added := share_decided small rest.length (handleAll d rest e').1
      have size : (((env, payload) :: rest).length : Int) = rest.length + 1 := by simp
      rw [size]
      refine ⟨by rw [total, counted, add_assoc, added], ?_⟩
      rw [decided_cons, decided_cons]
      obtain rfl | rfl : decision = 0 ∨ decision = 1 := by omega
      · simp only [Except.toOption, Option.some.injEq, if_true, zero_ne_one, if_false]
        omega
      · simp only [Except.toOption, Option.some.injEq, if_true, one_ne_zero, if_false]
        omega

private theorem run_processed (run : List (Env × Option Bytes)) (e : Engine) :
    e.packetsProcessed + run.length ≤ (handleAll d run e).2.packetsProcessed ∧
      (¬ Undisturbed d run e →
        e.packetsProcessed + run.length < (handleAll d run e).2.packetsProcessed) := by
  induction run generalizing e with
  | nil => exact ⟨(Int.add_zero _).le, fun disturbed => absurd trivial disturbed⟩
  | cons packet rest ih =>
      obtain ⟨env, payload⟩ := packet
      obtain ⟨calm, loud⟩ := handler_tallied d env payload e
      obtain ⟨least, more⟩ := ih (handled d env payload e).2
      have after : (packetHandler d env payload e).2 = (handled d env payload e).2 := by
        rw [packetHandler_eq]
      rw [handleAll_cons, List.length_cons]
      push_cast
      by_cases panicked : Panicked d env payload e
      · have twice := loud panicked
        exact ⟨by omega, fun _ => by omega⟩
      · obtain ⟨-, counted⟩ := calm panicked
        have once : (handled d env payload e).2.packetsProcessed = e.packetsProcessed + 1 := by
          rw [share] at counted
          split at counted <;> exact congrArg Prod.fst counted
        refine ⟨by omega, fun disturbed => ?_⟩
        have later := more fun undisturbed => disturbed ⟨panicked, after ▸ undisturbed⟩
        omega

end Runs

/-- Exact counters. Over a run of the packet handler, in any surroundings and from any
engine, the number of packets processed grows by the number of packets, that of packets
allowed by the decisions 0, that of packets blocked by the decisions 1, and the first is
the sum of the other two, if and only if nothing that a packet asked for failed. -/
theorem counters_exact_iff (d : Decoder) (run : List (Env × Option Bytes)) (e : Engine) :
    (let handled := handleAll d run e
      let processed := handled.2.packetsProcessed - e.packetsProcessed
      let allowed := handled.2.packetsAllowed - e.packetsAllowed
      let blocked := handled.2.packetsBlocked - e.packetsBlocked
      processed = run.length ∧ allowed = decided 0 handled.1 ∧ blocked = decided 1 handled.1 ∧
        processed = allowed + blocked) ↔
    Undisturbed d run e := by
  dsimp only
  constructor
  · rintro ⟨exact, -⟩
    by_contra disturbed
    have more := (run_processed run e).2 disturbed
    omega
  · intro undisturbed
    obtain ⟨total, sum⟩ := run_tally run undisturbed
    simp only [tally, Prod.mk_add_mk, Prod.mk.injEq] at total
    obtain ⟨processed, allowed, blocked⟩ := total
    refine ⟨by omega, by omega, by omega, by omega⟩

/-- Surroundings in which the evaluator denies every packet and the capture writer panics. -/
def brokenCapture : Env :=
  { Quiet.quietEnv Evasion.everywhere 0 with
    evaluate := fun _ => .returned (some ⟨false, []⟩)
    writeBlock := fun _ => .panicked "short write" }

def wholeSyn : Bytes :=
  [0x45, 0, 0, 40, 0, 1, 0, 0, 64, 6, 0, 0, 10, 0, 1, 100, 10, 0, 2, 50] ++ Evasion.synToSsh

/-- One dropped packet is counted as two packets, one of them allowed. -/
theorem broken_capture_counts_twice :
    let handled := handleAll Packet.Parser.fixedFields [(brokenCapture, some wholeSyn)]
      { Quiet.freshEngine with pcapWriter := true }
    handled.1 = [.ok 1] ∧ tally handled.2 = (2, 1, 1) := by
  decide +kernel

end L3Firewall.Pipeline.Counters
