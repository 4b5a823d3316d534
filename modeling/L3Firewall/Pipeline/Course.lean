/- Pipeline/Course
   source: internal/engine/engine.go
   digest: How far the evaluation of a packet gets, and the one report it ends with. -/

import L3Firewall.Pipeline.Handlers

set_option autoImplicit false
set_option relaxedAutoImplicit false

namespace L3Firewall.Pipeline.Course

open Foundation.Recover (Reply Action)
open Foundation.Recover.Action (fail read update recover)
open Conntrack.FlowTable (Table Flow)
open Packet.Parser (Bytes Decoder PacketInfo ParsePacket)
open Opa.Document (Input)
open Opa.Evaluator (Text text Result)
open Handlers

/-- What the evaluation comes to, before it counts, records and logs it. -/
inductive Ending
  | panicked (value : String)
  | blocked (tid : String) (reason : Text) (alert : Option (AlertType × Text))
  | accepted (tid : String) (type : EventType) (reason : Text) (result : Result)

def report (env : Env) (pi : PacketInfo) : Ending → Action Engine Result
  | .panicked value => fail value
  | .blocked tid reason none => block env pi tid reason
  | .blocked tid reason (some (type, message)) => blockAndAlert env pi tid reason type message
  | .accepted tid type reason result => accept env pi tid type reason result

section Decision

def traceID (env : Env) : Except String String :=
  match env.traceBytes with
  | .ok bytes => .ok (String.ofList (bytes.flatMap hexDigits))
  | .error err => .error ("crypto/rand: " ++ err)

def opaErrorReason (err : String) : Text := text ("OPA error: " ++ err ++ " — blocked for safety")

def judgement (env : Env) (e : Engine) (tid : String) (input : Input) : Ending :=
  if e.eval then
    match env.evaluate input with
    | .panicked value => .panicked value
    | .failed err => .blocked tid (opaErrorReason err) (some (.opaError, opaErrorReason err))
    | .returned none => .panicked nilPointer
    | .returned (some result) =>
        if !result.allowed && e.auditOnly then .accepted tid .auditBlock result.reason ⟨true, []⟩
        else if result.allowed then .accepted tid .packetAllow [] result
        else .blocked tid (truncate result.reason) none
  else if e.failClosed then
    .blocked tid (text "evaluator unavailable — blocked for safety") none
  else .accepted tid .packetAllow [] ⟨true, []⟩

def withCountries (env : Env) (e : Engine) (pi : PacketInfo) (input : Input) :
    Except String Input :=
  if e.geoipReader then
    match env.lookupCountry pi.srcIP with
    | .error value => .error value
    | .ok src =>
        match env.lookupCountry pi.dstIP with
        | .error value => .error value
        | .ok dst => .ok { input with geo := ⟨src, dst⟩ }
  else .ok input

def conclusion (env : Env) (e : Engine) (pi : PacketInfo) (tid : String) (input : Input) :
    Ending :=
  if listed e.threatIntel pi.srcIP then
    .blocked tid (text "source IP in threat intelligence blocklist") none
  else
    match withCountries env e pi input with
    | .error value => .panicked value
    | .ok input => judgement env e tid input

def connLimitEnding (pi : PacketInfo) (tid : String) : Ending :=
  .blocked tid (text connLimitReason)
    (some (.connLimit, text (connLimitReason ++ " src=" ++ pi.srcIP)))

def courseRates (env : Env) (pi : PacketInfo) (size : Nat) (tid : String) (flow : Flow)
    (t : Table) (e : Engine) : Engine × Ending :=
  match e.ratelimit with
  | none => (e, .panicked nilPointer)
  | some l =>
      let tracked := trackRates env pi size l
      let e := { e with ratelimit := some tracked.2 }
      if exceeds tracked then (e, .blocked tid (rateLimitReason tracked.1) none)
      else (e, conclusion env e pi tid (builtInput env pi flow tracked.1 t))

def courseFlow (env : Env) (pi : PacketInfo) (size : Nat) (tid : String) (e : Engine) :
    Engine × Ending :=
  match e.conntrack with
  | none => (e, .panicked nilPointer)
  | some t =>
      match (trackFlow env pi t).1 with
      | none => ({ e with conntrack := some (trackFlow env pi t).2 }, connLimitEnding pi tid)
      | some flow =>
          let e := { e with conntrack := some (trackedTable env pi t) }
          match macRefusal e.l2Filter pi.srcMAC with
          | some reason => (e, .blocked tid (text reason) none)
          | none => courseRates env pi size tid flow (trackedTable env pi t) e

/-- The engine when the packet is reported, and what is reported. -/
def course (env : Env) (pi : PacketInfo) (size : Nat) (e : Engine) : Engine × Ending :=
  match traceID env with
  | .error value => (e.countProcessed, .panicked value)
  | .ok tid => courseFlow env pi size tid e.countProcessed

end Decision

variable {env : Env} {pi : PacketInfo} {size : Nat} {e : Engine} {tid : String}

private theorem judge_eq (input : Input) :
    judge env pi tid input e = report env pi (judgement env e tid input) e := by
  change (if e.eval then _ else _ : Action Engine Result) e = _
  unfold judgement
  split
  · cases env.evaluate input with
    | panicked value => rfl
    | failed err => rfl
    | returned answer =>
        cases answer with
        | none => rfl
        | some result =>
            dsimp only
            split
            · rfl
            · split
              · rfl
              · rfl
  · split
    · rfl
    · rfl

private theorem conclude_eq (input : Input) :
    conclude env pi tid input e = report env pi (conclusion env e pi tid input) e := by
  change (if listed e.threatIntel pi.srcIP then _ else _ : Action Engine Result) e = _
  unfold conclusion
  split
  · rfl
  · unfold withCountries
    change ((if e.geoipReader then _ else _ : Action Engine Input) >>= _) e = _
    split
    · cases env.lookupCountry pi.srcIP with
      | error value => rfl
      | ok src =>
          cases env.lookupCountry pi.dstIP with
          | error value => rfl
          | ok dst => exact judge_eq _
    · exact judge_eq input

/-- The last statements of the evaluation, after what it gathered. -/
def finish (env : Env) (pi : PacketInfo) : Gathered → Action Engine Result
  | .refused result => pure result
  | .built tid input => conclude env pi tid input

private theorem refused_finish (x : Action Engine Result) :
    ((x >>= fun result => pure (Gathered.refused result)) >>= finish env pi) = x :=
  Action.bind_pure_bind x fun _ => rfl

private theorem gatherRates_eq (flow : Flow) (t : Table) (tracked : e.conntrack = some t) :
    (gatherRates env pi size tid flow >>= finish env pi) e =
      report env pi (courseRates env pi size tid flow t e).2
        (courseRates env pi size tid flow t e).1 := by
  unfold courseRates
  change ((deref e.ratelimit >>= _) >>= finish env pi) e = _
  cases e.ratelimit with
  | none => rfl
  | some l =>
      change ((if exceeds (trackRates env pi size l) then _ else _ : Action Engine Gathered) >>=
        finish env pi) _ = _
      dsimp only
      split
      · exact congrFun (refused_finish _) _
      · rw [tracked]
        exact conclude_eq _

private theorem evaluateBody_eq (env : Env) (pi : PacketInfo) (size : Nat) (e : Engine) :
    evaluateBody env pi size e =
      report env pi (course env pi size e).2 (course env pi size e).1 := by
  change (gather env pi size >>= finish env pi) e = _
  unfold course traceID
  change ((newTraceID env >>= _) >>= finish env pi) e.countProcessed = _
  unfold newTraceID
  cases env.traceBytes with
  | error err => rfl
  | ok bytes =>
      change ((deref e.countProcessed.conntrack >>= _) >>= finish env pi) e.countProcessed = _
      dsimp only
      unfold courseFlow
      cases e.countProcessed.conntrack with
      | none => rfl
      | some t =>
          change ((match (trackFlow env pi t).1 with
            | none => _
            | some flow => _ : Action Engine Gathered) >>= finish env pi) _ = _
          dsimp only
          cases (trackFlow env pi t).1 with
          | none => exact congrFun (refused_finish _) _
          | some flow =>
              change ((match macRefusal e.countProcessed.l2Filter pi.srcMAC with
                | some reason => _
                | none => _ : Action Engine Gathered) >>= finish env pi) _ = _
              dsimp only
              cases macRefusal e.countProcessed.l2Filter pi.srcMAC with
              | some reason => exact congrFun (refused_finish _) _
              | none => exact gatherRates_eq flow _ rfl

section Report

def auditEvent (env : Env) (pi : PacketInfo) (type : EventType) (tid : String) (reason : Text) :
    AuditEvent where
  timestamp := env.auditTime
  type := type
  traceID := tid
  srcIP := pi.srcIP
  dstIP := pi.dstIP
  protocol := pi.protocol
  srcPort := pi.srcPort
  dstPort := pi.dstPort
  packetSize := pi.packetSize
  reason := reason

def eventOf (env : Env) (pi : PacketInfo) : Ending → Option AuditEvent
  | .panicked _ => none
  | .blocked tid reason _ => some (auditEvent env pi .packetBlock tid reason)
  | .accepted tid type reason _ => some (auditEvent env pi type tid reason)

def panicOf {α : Type} : Reply α → Except String Unit
  | .returned _ | .failed _ => .ok ()
  | .panicked value => .error value

def logged (env : Env) (e : Engine) (event : AuditEvent) : Except String Unit :=
  if e.auditLogger then panicOf (env.auditLog event) else .ok ()

def alerted (env : Env) (e : Engine) : Option (AlertType × Text) → Except String Unit
  | none => .ok ()
  | some (type, message) => if e.alertRouter then env.alert type message else .ok ()

/-- What the evaluation returns, or the panic that it is left with. -/
def answer (env : Env) (pi : PacketInfo) (e : Engine) : Ending → Except String Result
  | .panicked value => .error value
  | .blocked tid reason alert => do
      logged env e (auditEvent env pi .packetBlock tid reason)
      alerted env e alert
      return ⟨false, reason⟩
  | .accepted tid type reason result => do
      logged env e (auditEvent env pi type tid reason)
      return result

/-- The engine once the packet is counted and recorded. -/
def recorded (env : Env) (pi : PacketInfo) (e : Engine) : Ending → Engine
  | .panicked _ => e
  | .blocked tid reason _ => e.countBlocked.recordBlock env.blockTime pi reason tid
  | .accepted _ _ _ _ => e.countAllowed

def logCalls (e : Engine) (event : AuditEvent) : List Call :=
  if e.auditLogger then [.log event] else []

def sendCalls (env : Env) (e : Engine) : Option (AlertType × Text) → List Call
  | none => []
  | some (type, message) =>
      if e.alertRouter then [.send type message env.alertTime env.sendTime] else []

/-- The calls that report an ending. The logger comes first, and a panic of it leaves the alert
out. -/
def calls (env : Env) (pi : PacketInfo) (e : Engine) : Ending → List Call
  | .panicked _ => []
  | .blocked tid reason alert =>
      logCalls e (auditEvent env pi .packetBlock tid reason) ++
        match logged env e (auditEvent env pi .packetBlock tid reason) with
        | .ok _ => sendCalls env e alert
        | .error _ => []
  | .accepted tid type reason _ => logCalls e (auditEvent env pi type tid reason)

def settled (env : Env) (pi : PacketInfo) (e : Engine) (ending : Ending) : Engine :=
  (recorded env pi e ending).handed (calls env pi e ending)

private theorem handed_nil (e : Engine) : e.handed [] = e := by
  unfold Engine.handed
  rw [List.append_nil]

private theorem handed_handed (e : Engine) (first second : List Call) :
    (e.handed first).handed second = e.handed (first ++ second) := by
  unfold Engine.handed
  rw [List.append_assoc]

private theorem logAudit_eq (type : EventType) (reason : Text) :
    logAudit env type tid pi reason e = (logged env e (auditEvent env pi type tid reason),
      e.handed (logCalls e (auditEvent env pi type tid reason))) := by
  change (if e.auditLogger then _ else _ : Action Engine Unit) e = _
  unfold logged logCalls
  split
  · rw [Action.bind_apply]
    change (_ : Action Engine Unit) (e.handed [.log (auditEvent env pi type tid reason)]) = _
    unfold auditEvent
    generalize env.auditLog _ = reply
    cases reply with
    | returned _ => rfl
    | failed _ => rfl
    | panicked value => rfl
  · rw [handed_nil]
    rfl

private theorem fireAlert_eq (type : AlertType) (message : Text) :
    fireAlert env type message e =
      (alerted env e (some (type, message)),
        e.handed (sendCalls env e (some (type, message)))) := by
  change (if e.alertRouter then _ else _ : Action Engine Unit) e = _
  unfold alerted sendCalls
  dsimp only
  split
  · rw [Action.bind_apply]
    unfold attempt
    cases env.alert type message with
    | ok _ => rfl
    | error value => rfl
  · rw [handed_nil]
    rfl

private theorem block_eq (reason : Text) :
    block env pi tid reason e =
      (do logged env e (auditEvent env pi .packetBlock tid reason); return ⟨false, reason⟩,
        (e.countBlocked.recordBlock env.blockTime pi reason tid).handed
          (logCalls e (auditEvent env pi .packetBlock tid reason))) := by
  change (logAudit env .packetBlock tid pi reason >>= _)
    (e.countBlocked.recordBlock env.blockTime pi reason tid) = _
  rw [Action.bind_apply, logAudit_eq]
  change Action.resume _ (logged env e (auditEvent env pi .packetBlock tid reason), _) = _
  cases logged env e (auditEvent env pi .packetBlock tid reason) with
  | ok _ => rfl
  | error value => rfl

private theorem report_eq (ending : Ending) :
    report env pi ending e = (answer env pi e ending, settled env pi e ending) := by
  cases ending with
  | panicked value =>
      unfold settled calls
      rw [handed_nil]
      rfl
  | blocked tid reason alert =>
      cases alert with
      | none =>
          change block env pi tid reason e = _
          rw [block_eq]
          dsimp only [answer, settled, calls, sendCalls]
          cases logged env e (auditEvent env pi .packetBlock tid reason) with
          | ok _ =>
              rw [List.append_nil]
              rfl
          | error value =>
              rw [List.append_nil]
              rfl
      | some alert =>
          obtain ⟨type, message⟩ := alert
          change (block env pi tid reason >>= _) e = _
          rw [Action.bind_apply, block_eq]
          dsimp only [answer, settled, calls]
          cases logged env e (auditEvent env pi .packetBlock tid reason) with
          | error value =>
              rw [List.append_nil]
              rfl
          | ok _ =>
              change (fireAlert env type message >>= _)
                ((e.countBlocked.recordBlock env.blockTime pi reason tid).handed _) = _
              rw [Action.bind_apply, fireAlert_eq, handed_handed]
              change Action.resume _ (alerted env e (some (type, message)), _) = _
              cases alerted env e (some (type, message)) with
              | ok _ => rfl
              | error value => rfl
  | accepted tid type reason result =>
      change (logAudit env type tid pi reason >>= _) e.countAllowed = _
      rw [Action.bind_apply, logAudit_eq]
      dsimp only [answer]
      change Action.resume _ (logged env e (auditEvent env pi type tid reason), _) = _
      cases logged env e (auditEvent env pi type tid reason) with
      | ok _ => rfl
      | error value => rfl

end Report

section Whole

/-- The result of an evaluation that ends so, and the engine after it. -/
def result (env : Env) (pi : PacketInfo) (reached : Engine × Ending) : Result × Engine :=
  match answer env pi reached.1 reached.2 with
  | .ok result => (result, settled env pi reached.1 reached.2)
  | .error value =>
      (⟨false, text ("internal error: " ++ value)⟩,
        (settled env pi reached.1 reached.2).countProcessed.countBlocked)

def evaluated (env : Env) (pi : PacketInfo) (size : Nat) (e : Engine) : Result × Engine :=
  result env pi (course env pi size e)

private theorem evaluatePacket_eq (env : Env) (pi : PacketInfo) (size : Nat) (e : Engine) :
    evaluatePacket env pi size e =
      (.ok (evaluated env pi size e).1, (evaluated env pi size e).2) := by
  unfold evaluatePacket recover evaluated result
  rw [evaluateBody_eq, report_eq]
  dsimp only
  cases answer env pi (course env pi size e).1 (course env pi size e).2 with
  | ok result => rfl
  | error value => rfl

def captureCalls (e : Engine) (raw : Bytes) : List Call :=
  if e.pcapWriter then [.writeBlock raw] else []

/-- A dropped packet is handed to the capture writer, which may panic. -/
def captured (env : Env) (raw : Bytes) (e : Engine) : Engine :=
  match if e.pcapWriter then panicOf (env.writeBlock raw) else .ok () with
  | .ok _ => e.handed (captureCalls e raw)
  | .error _ => (e.handed (captureCalls e raw)).countProcessed.countAllowed

def decision (env : Env) (raw : Bytes) (evaluated : Result × Engine) : Nat × Engine :=
  if evaluated.1.allowed then (0, evaluated.2) else (1, captured env raw evaluated.2)

/-- The decision on a payload and the engine after it. -/
def handled (d : Decoder) (env : Env) (payload : Option Bytes) (e : Engine) : Nat × Engine :=
  match payload with
  | none => (1, e.countProcessed.countBlocked)
  | some raw =>
      match ParsePacket d raw with
      | .error _ => (1, e.countProcessed.countBlocked)
      | .ok pi => decision env raw (evaluated env pi raw.length e)

private theorem capture_eq (raw : Bytes) :
    capture env raw e = (if e.pcapWriter then panicOf (env.writeBlock raw) else .ok (),
      e.handed (captureCalls e raw)) := by
  change (if e.pcapWriter then _ else _ : Action Engine Unit) e = _
  unfold captureCalls
  split
  · rw [Action.bind_apply]
    cases env.writeBlock raw with
    | returned _ => rfl
    | failed _ => rfl
    | panicked value => rfl
  · rw [handed_nil]
    rfl

private theorem recover_capture_eq (raw : Bytes) :
    recover (capture env raw >>= fun _ => pure 1) (fun _ => do
      update fun e => e.countProcessed.countAllowed
      return 1) e = (.ok 1, captured env raw e) := by
  unfold recover captured
  rw [Action.bind_apply, capture_eq]
  cases (if e.pcapWriter then panicOf (env.writeBlock raw) else .ok ()) with
  | ok _ => rfl
  | error value => rfl

theorem packetHandler_eq (d : Decoder) (env : Env) (payload : Option Bytes) (e : Engine) :
    packetHandler d env payload e =
      (.ok (handled d env payload e).1, (handled d env payload e).2) := by
  unfold packetHandler handleBody handled decision
  cases payload with
  | none => rfl
  | some raw =>
      dsimp only
      cases ParsePacket d raw with
      | error err => rfl
      | ok pi =>
          dsimp only
          have evaluation := evaluatePacket_eq env pi raw.length e
          cases allowed : (evaluated env pi raw.length e).1.allowed with
          | true =>
              rw [if_pos rfl]
              refine Action.Returns.recovered ((Action.Returns.then evaluation _).trans ?_) _
              rw [if_pos allowed]
              rfl
          | false =>
              rw [if_neg (by simp)]
              refine (Action.recover_congr ((Action.Returns.then evaluation _).trans ?_) _).trans
                (recover_capture_eq raw)
              rw [if_neg (by simp [allowed])]

end Whole

section Untouched

theorem course_engine (env : Env) (pi : PacketInfo) (size : Nat) (e : Engine) :
    ∃ table limiter, (course env pi size e).1 =
      { e.countProcessed with conntrack := table, ratelimit := limiter } := by
  unfold course
  split
  · exact ⟨_, _, rfl⟩
  · unfold courseFlow
    split
    · exact ⟨_, _, rfl⟩
    · split
      · exact ⟨_, _, rfl⟩
      · dsimp only
        split
        · exact ⟨_, _, rfl⟩
        · unfold courseRates
          split
          · exact ⟨_, _, rfl⟩
          · dsimp only
            split
            · exact ⟨_, _, rfl⟩
            · exact ⟨_, _, rfl⟩

def settings (e : Engine) : Engine :=
  { e with
    conntrack := none
    ratelimit := none
    packetsProcessed := 0
    packetsAllowed := 0
    packetsBlocked := 0
    blockStats := ∅
    recentBlocks := []
    outbox := [] }

theorem conclusion_settings (env : Env) (e : Engine) (pi : PacketInfo) (tid : String)
    (input : Input) : conclusion env e pi tid input = conclusion env (settings e) pi tid input :=
  rfl

theorem answer_settings (env : Env) (pi : PacketInfo) (e : Engine) (ending : Ending) :
    answer env pi e ending = answer env pi (settings e) ending := by
  cases ending with
  | panicked value => rfl
  | blocked tid reason alert =>
      cases alert with
      | none => rfl
      | some alert => rfl
  | accepted tid type reason result => rfl

theorem result_same (env : Env) (pi : PacketInfo) (e : Engine) (ending : Ending) :
    settings (result env pi (e, ending)).2 = settings e ∧
      (result env pi (e, ending)).2.conntrack = e.conntrack ∧
      (result env pi (e, ending)).2.ratelimit = e.ratelimit := by
  have counted : settings (settled env pi e ending) = settings e ∧
      (settled env pi e ending).conntrack = e.conntrack ∧
      (settled env pi e ending).ratelimit = e.ratelimit := by
    cases ending with
    | panicked value => exact ⟨rfl, rfl, rfl⟩
    | blocked tid reason alert => exact ⟨rfl, rfl, rfl⟩
    | accepted tid type reason result => exact ⟨rfl, rfl, rfl⟩
  unfold result
  generalize settled env pi e ending = final at counted ⊢
  split
  · exact counted
  · exact counted

theorem decision_same (env : Env) (pi : PacketInfo) (raw : Bytes) (e : Engine) (ending : Ending) :
    settings (decision env raw (result env pi (e, ending))).2 = settings e ∧
      (decision env raw (result env pi (e, ending))).2.conntrack = e.conntrack ∧
      (decision env raw (result env pi (e, ending))).2.ratelimit = e.ratelimit := by
  have resulted := result_same env pi e ending
  generalize result env pi (e, ending) = out at resulted ⊢
  unfold decision
  split
  · exact resulted
  · unfold captured
    split
    · exact resulted
    · exact resulted

theorem course_settings (env : Env) (pi : PacketInfo) (size : Nat) (e : Engine) :
    settings (course env pi size e).1 = settings e := by
  obtain ⟨table, limiter, same⟩ := course_engine env pi size e
  rw [same]
  rfl

theorem handled_settings (d : Decoder) (env : Env) (payload : Option Bytes) (e : Engine) :
    settings (handled d env payload e).2 = settings e := by
  unfold handled
  cases payload with
  | none => rfl
  | some raw =>
      dsimp only
      cases ParsePacket d raw with
      | error err => rfl
      | ok pi => exact (decision_same env pi raw _ _).1.trans (course_settings env pi raw.length e)

theorem decision_records (env : Env) (pi : PacketInfo) (raw : Bytes) (e : Engine)
    (ending : Ending) :
    (decision env raw (result env pi (e, ending))).2.recentBlocks =
        (settled env pi e ending).recentBlocks ∧
      (decision env raw (result env pi (e, ending))).2.blockStats =
        (settled env pi e ending).blockStats := by
  have resulted : (result env pi (e, ending)).2.recentBlocks =
        (settled env pi e ending).recentBlocks ∧
      (result env pi (e, ending)).2.blockStats = (settled env pi e ending).blockStats := by
    unfold result
    generalize settled env pi e ending = final
    split
    · exact ⟨rfl, rfl⟩
    · exact ⟨rfl, rfl⟩
  generalize result env pi (e, ending) = out at resulted ⊢
  unfold decision
  split
  · exact resulted
  · unfold captured
    split
    · exact resulted
    · exact resulted

end Untouched

section Calls

private theorem decision_outbox (env : Env) (pi : PacketInfo) (raw : Bytes) (e : Engine)
    (ending : Ending) : (decision env raw (result env pi (e, ending))).2.outbox =
      e.outbox ++ (calls env pi e ending ++
        if (result env pi (e, ending)).1.allowed then [] else captureCalls e raw) := by
  have settledOutbox : (settled env pi e ending).outbox = e.outbox ++ calls env pi e ending := by
    cases ending with
    | panicked value => rfl
    | blocked tid reason alert => rfl
    | accepted tid type reason result => rfl
  have resulted : (result env pi (e, ending)).2.outbox = e.outbox ++ calls env pi e ending := by
    unfold result
    generalize settled env pi e ending = final at settledOutbox ⊢
    split
    · exact settledOutbox
    · exact settledOutbox
  have writer := congrArg Engine.pcapWriter (result_same env pi e ending).1
  change (result env pi (e, ending)).2.pcapWriter = e.pcapWriter at writer
  unfold decision
  split
  · rw [resulted, List.append_nil]
  · have same : captureCalls (result env pi (e, ending)).2 raw = captureCalls e raw := by
      unfold captureCalls
      rw [writer]
    rw [← same, ← List.append_assoc, ← resulted]
    unfold captured
    split
    · rfl
    · rfl

def made (d : Decoder) (env : Env) (payload : Option Bytes) (e : Engine) : List Call :=
  (handled d env payload e).2.outbox.drop e.outbox.length

private theorem course_outbox (env : Env) (pi : PacketInfo) (size : Nat) (e : Engine) :
    (course env pi size e).1.outbox = e.outbox := by
  obtain ⟨table, limiter, same⟩ := course_engine env pi size e
  rw [same]
  rfl

theorem made_dropped {d : Decoder} {payload : Option Bytes}
    (dropped : handled d env payload e = (1, e.countProcessed.countBlocked)) :
    made d env payload e = [] := by
  rw [made, dropped]
  exact List.drop_length

theorem handled_parsed {d : Decoder} {raw : Bytes} (parsed : ParsePacket d raw = .ok pi) :
    handled d env (some raw) e = decision env raw (evaluated env pi raw.length e) := by
  unfold handled
  dsimp only
  rw [parsed]

theorem made_parsed {d : Decoder} {raw : Bytes} (parsed : ParsePacket d raw = .ok pi) :
    made d env (some raw) e =
      calls env pi (course env pi raw.length e).1 (course env pi raw.length e).2 ++
        if (evaluated env pi raw.length e).1.allowed then []
        else captureCalls (course env pi raw.length e).1 raw := by
  rw [made, handled_parsed parsed, evaluated, decision_outbox, course_outbox, List.drop_left]

theorem handled_outbox (d : Decoder) (env : Env) (payload : Option Bytes) (e : Engine) :
    (handled d env payload e).2.outbox = e.outbox ++ made d env payload e := by
  have dropped (same : handled d env payload e = (1, e.countProcessed.countBlocked)) :
      (handled d env payload e).2.outbox = e.outbox ++ made d env payload e := by
    rw [made_dropped same, same, List.append_nil]
    rfl
  cases payload with
  | none => exact dropped rfl
  | some raw =>
      cases parsed : ParsePacket d raw with
      | error err =>
          refine dropped ?_
          unfold handled
          dsimp only
          rw [parsed]
      | ok pi =>
          rw [made_parsed parsed, handled_parsed parsed, evaluated, decision_outbox, course_outbox]

end Calls

section Honest

/-- An ending that accepts lets the packet pass and does not call it a block. -/
def Ending.Honest : Ending → Prop
  | .panicked _ | .blocked _ _ _ => True
  | .accepted _ type _ result => type ≠ .packetBlock ∧ result.allowed = true

private theorem judgement_honest (input : Input) : Ending.Honest (judgement env e tid input) := by
  unfold judgement
  split
  · split
    · trivial
    · trivial
    · trivial
    · split
      · exact ⟨nofun, rfl⟩
      · split
        · next allowed => exact ⟨nofun, allowed⟩
        · trivial
  · split
    · trivial
    · exact ⟨nofun, rfl⟩

private theorem conclusion_honest (input : Input) :
    Ending.Honest (conclusion env e pi tid input) := by
  unfold conclusion
  split
  · trivial
  · split
    · trivial
    · exact judgement_honest _

private theorem courseRates_honest (flow : Flow) (t : Table) :
    Ending.Honest (courseRates env pi size tid flow t e).2 := by
  unfold courseRates
  split
  · trivial
  · dsimp only
    split
    · trivial
    · exact conclusion_honest _

theorem course_honest (env : Env) (pi : PacketInfo) (size : Nat) (e : Engine) :
    Ending.Honest (course env pi size e).2 := by
  unfold course
  split
  · trivial
  · unfold courseFlow
    split
    · trivial
    · split
      · trivial
      · dsimp only
        split
        · trivial
        · exact courseRates_honest _ _

theorem blocked_refused (env : Env) (pi : PacketInfo) (e : Engine) (tid : String) (reason : Text)
    (alert : Option (AlertType × Text)) :
    (result env pi (e, .blocked tid reason alert)).1.allowed = false := by
  unfold result answer
  dsimp only
  cases logged env e (auditEvent env pi .packetBlock tid reason) with
  | error value => rfl
  | ok _ =>
      cases alerted env e alert with
      | error value => rfl
      | ok _ => rfl

end Honest

section Runs

theorem handleAll_cons (d : Decoder) (env : Env) (payload : Option Bytes)
    (rest : List (Env × Option Bytes)) (e : Engine) :
    handleAll d ((env, payload) :: rest) e =
      (.ok (handled d env payload e).1 :: (handleAll d rest (handled d env payload e).2).1,
        (handleAll d rest (handled d env payload e).2).2) := by
  change (_ :: _, _) = _
  rw [packetHandler_eq]

def madeAll (d : Decoder) : List (Env × Option Bytes) → Engine → List Call
  | [], _ => []
  | (env, payload) :: rest, e =>
      made d env payload e ++ madeAll d rest (handled d env payload e).2

theorem handleAll_outbox (d : Decoder) (run : List (Env × Option Bytes)) (e : Engine) :
    (handleAll d run e).2.outbox = e.outbox ++ madeAll d run e := by
  induction run generalizing e with
  | nil => exact (List.append_nil _).symm
  | cons packet rest ih =>
      obtain ⟨env, payload⟩ := packet
      rw [handleAll_cons, madeAll, ← List.append_assoc, ← handled_outbox]
      exact ih _

end Runs

end L3Firewall.Pipeline.Course
