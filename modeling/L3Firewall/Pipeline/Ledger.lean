/- Pipeline/Ledger
   source: internal/engine/engine.go
   digest: The audit trail, the counters, the recent blocks and the statistics tell one story. -/

import L3Firewall.Pipeline.Counters
import L3Firewall.Pipeline.Course
import Mathlib.Data.List.DropRight

set_option autoImplicit false
set_option relaxedAutoImplicit false

namespace L3Firewall.Pipeline.Ledger

open Foundation.FiniteMap
open Foundation.Recover (Reply)
open Conntrack.FlowTable (Time Table Flow)
open Packet.Parser (Bytes Decoder PacketInfo ParsePacket)
open Opa.Document (Input)
open Opa.Evaluator (Text Result)
open Handlers
open Course
open Counters (Undisturbed Panicked decided tally)

/-- The event that a payload hands to the audit logger. -/
def trail (d : Decoder) (env : Env) (payload : Option Bytes) (e : Engine) : Option AuditEvent :=
  match payload with
  | none => none
  | some raw =>
      match ParsePacket d raw with
      | .error _ => none
      | .ok pi => eventOf env pi (course env pi raw.length e).2

def trailAll (d : Decoder) : List (Env × Option Bytes) → Engine → List AuditEvent
  | [], _ => []
  | (env, payload) :: rest, e =>
      (trail d env payload e).toList ++ trailAll d rest (handled d env payload e).2

def logs (calls : List Call) : List AuditEvent :=
  calls.filterMap fun
    | .log event => some event
    | .send _ _ _ _ | .writeBlock _ => none

def blocking (event : AuditEvent) : Bool := event.type == .packetBlock

structure Describes (entry : BlockLogEntry) (event : AuditEvent) : Prop where
  srcIP : entry.srcIP = event.srcIP
  dstIP : entry.dstIP = event.dstIP
  protocol : entry.protocol = event.protocol
  srcPort : entry.srcPort = event.srcPort
  dstPort : entry.dstPort = event.dstPort
  packetSize : entry.packetSize = event.packetSize
  traceID : entry.traceID = event.traceID
  reason : entry.reason = truncate event.reason

def entryOf (now : Time) (event : AuditEvent) : BlockLogEntry where
  timestamp := now
  srcIP := event.srcIP
  dstIP := event.dstIP
  protocol := event.protocol
  srcPort := event.srcPort
  dstPort := event.dstPort
  reason := truncate event.reason
  packetSize := event.packetSize
  traceID := event.traceID

def blockOf (d : Decoder) (env : Env) (payload : Option Bytes) (e : Engine) : List BlockLogEntry :=
  ((trail d env payload e).toList.filter blocking).map (entryOf env.blockTime)

def blocksAll (d : Decoder) : List (Env × Option Bytes) → Engine → List BlockLogEntry
  | [], _ => []
  | (env, payload) :: rest, e =>
      blockOf d env payload e ++ blocksAll d rest (handled d env payload e).2

section Packets

variable {d : Decoder} {env : Env} {payload : Option Bytes} {pi : PacketInfo} {raw : Bytes}
  {e : Engine}

theorem handled_records (d : Decoder) (env : Env) (payload : Option Bytes) (e : Engine) :
    (handled d env payload e).2.recentBlocks =
        (blockOf d env payload e).foldl appendRecent e.recentBlocks ∧
      (handled d env payload e).2.blockStats = (blockOf d env payload e).foldl
        (fun stats entry => countReason stats entry.reason) e.blockStats := by
  unfold handled blockOf trail
  cases payload with
  | none => exact ⟨rfl, rfl⟩
  | some raw =>
      dsimp only
      cases ParsePacket d raw with
      | error err => exact ⟨rfl, rfl⟩
      | ok pi =>
          dsimp only
          unfold evaluated
          obtain ⟨table, limiter, same⟩ := course_engine env pi raw.length e
          have recent : (course env pi raw.length e).1.recentBlocks = e.recentBlocks := by
            rw [same]
            rfl
          have stats : (course env pi raw.length e).1.blockStats = e.blockStats := by
            rw [same]
            rfl
          have honest := course_honest env pi raw.length e
          rw [← recent, ← stats]
          generalize course env pi raw.length e = final at honest
          obtain ⟨reached, ending⟩ := final
          obtain ⟨recorded, counted⟩ := decision_records env pi raw reached ending
          rw [recorded, counted]
          cases ending with
          | panicked value => exact ⟨rfl, rfl⟩
          | blocked tid reason alert => exact ⟨rfl, rfl⟩
          | accepted tid type reason result =>
              have passed : blocking (auditEvent env pi type tid reason) = false := by
                simpa [blocking, auditEvent] using honest.1
              simp only [eventOf, Option.toList_some, List.filter_cons, passed, List.filter_nil]
              exact ⟨rfl, rfl⟩

private theorem handled_passes (passed : (handled d env payload e).1 = 0) :
    ∃ event, trail d env payload e = some event ∧ blocking event = false := by
  unfold handled at passed
  unfold trail
  cases payload with
  | none => exact absurd passed nofun
  | some raw =>
      dsimp only at passed ⊢
      cases parsed : ParsePacket d raw with
      | error err =>
          rw [parsed] at passed
          exact absurd passed nofun
      | ok pi =>
          rw [parsed] at passed
          dsimp only at passed ⊢
          have honest := course_honest env pi raw.length e
          unfold evaluated at passed
          generalize course env pi raw.length e = final at passed honest
          obtain ⟨reached, ending⟩ := final
          cases ending with
          | accepted tid type reason result =>
              refine ⟨_, rfl, ?_⟩
              simpa [blocking, auditEvent] using honest.1
          | panicked value => exact absurd passed nofun
          | blocked tid reason alert =>
              unfold decision at passed
              rw [if_neg (by simp [blocked_refused])] at passed
              exact absurd passed nofun

private theorem quiet_answer (quiet : ¬ Panicked d env (some raw) e)
    (parsed : ParsePacket d raw = .ok pi) :
    ∃ result, answer env pi (course env pi raw.length e).1 (course env pi raw.length e).2 =
      .ok result := by
  cases said : answer env pi (course env pi raw.length e).1 (course env pi raw.length e).2 with
  | ok result => exact ⟨result, rfl⟩
  | error value =>
      rw [Counters.panicked_parsed parsed, said] at quiet
      exact absurd (.inl rfl) quiet

private theorem answer_given {reached : Engine} {type : EventType} {tid : String} {reason : Text}
    {given result : Result}
    (said : answer env pi reached (.accepted tid type reason given) = .ok result) :
    result = given := by
  unfold answer at said
  dsimp only at said
  cases log : logged env reached (auditEvent env pi type tid reason) with
  | error value =>
      rw [log] at said
      exact absurd said nofun
  | ok _ =>
      rw [log] at said
      exact (Except.ok.inj said).symm

private theorem passes_iff (quiet : ¬ Panicked d env payload e) : (handled d env payload e).1 = 0 ↔
    ∃ event, trail d env payload e = some event ∧ blocking event = false := by
  refine ⟨handled_passes, ?_⟩
  rintro ⟨event, told, passing⟩
  unfold trail at told
  unfold handled
  cases payload with
  | none => exact absurd told nofun
  | some raw =>
      dsimp only at told ⊢
      cases parsed : ParsePacket d raw with
      | error err =>
          rw [parsed] at told
          exact absurd told nofun
      | ok pi =>
          obtain ⟨result, said⟩ := quiet_answer quiet parsed
          have honest := course_honest env pi raw.length e
          rw [parsed] at told
          dsimp only at told ⊢
          unfold evaluated
          generalize course env pi raw.length e = final at told said honest
          obtain ⟨reached, ending⟩ := final
          cases ending with
          | panicked value => exact absurd told nofun
          | blocked tid reason alert =>
              obtain rfl := Option.some.inj told
              exact absurd passing nofun
          | accepted tid type reason given =>
              unfold Course.result decision
              rw [said]
              dsimp only
              rw [answer_given said, if_pos honest.2]

end Packets

section Logged

theorem logs_append (first second : List Call) :
    logs (first ++ second) = logs first ++ logs second :=
  List.filterMap_append

private theorem logs_calls (env : Env) (pi : PacketInfo) (e : Engine)
    (logging : e.auditLogger = true)
    (ending : Ending) : logs (calls env pi e ending) = (eventOf env pi ending).toList := by
  have silent (alert : Option (AlertType × Text)) : logs (sendCalls env e alert) = [] := by
    unfold sendCalls
    split
    · rfl
    · split <;> rfl
  have told (event : AuditEvent) : logs (logCalls e event) = [event] := by
    rw [logCalls, if_pos logging]
    rfl
  cases ending with
  | panicked value => rfl
  | blocked tid reason alert =>
      rw [calls, logs_append, told, eventOf]
      split
      · rw [silent]
        rfl
      · rfl
  | accepted tid type reason result =>
      rw [calls, told]
      rfl

private theorem logs_made (d : Decoder) (env : Env) (payload : Option Bytes) (e : Engine)
    (logging : e.auditLogger = true) :
    logs (made d env payload e) = (trail d env payload e).toList := by
  unfold trail
  cases payload with
  | none =>
      rw [made_dropped rfl]
      rfl
  | some raw =>
      dsimp only
      cases parsed : ParsePacket d raw with
      | error err =>
          rw [made_dropped (by unfold handled; dsimp only; rw [parsed])]
          rfl
      | ok pi =>
          obtain ⟨table, limiter, same⟩ := course_engine env pi raw.length e
          have configured : (course env pi raw.length e).1.auditLogger = true := by
            rw [same]
            exact logging
          have silent : logs (captureCalls (course env pi raw.length e).1 raw) = [] := by
            unfold captureCalls
            split <;> rfl
          rw [made_parsed parsed, logs_append, logs_calls env pi _ configured]
          split
          · exact List.append_nil _
          · rw [silent, List.append_nil]

private theorem handled_auditLogger (d : Decoder) (env : Env) (payload : Option Bytes)
    (e : Engine) :
    (handled d env payload e).2.auditLogger = e.auditLogger := by
  have same := congrArg Engine.auditLogger (handled_settings d env payload e)
  exact same

private theorem logs_madeAll (d : Decoder) (run : List (Env × Option Bytes)) (e : Engine)
    (logging : e.auditLogger = true) : logs (madeAll d run e) = trailAll d run e := by
  induction run generalizing e with
  | nil => rfl
  | cons packet rest ih =>
      obtain ⟨env, payload⟩ := packet
      rw [madeAll, logs_append, logs_made d env payload e logging, trailAll,
        ih _ ((handled_auditLogger d env payload e).trans logging)]

end Logged

section Runs

variable {d : Decoder} {e : Engine}

private theorem run_records (run : List (Env × Option Bytes)) (e : Engine) :
    (handleAll d run e).2.recentBlocks = (blocksAll d run e).foldl appendRecent e.recentBlocks ∧
      (handleAll d run e).2.blockStats = (blocksAll d run e).foldl
        (fun stats entry => countReason stats entry.reason) e.blockStats := by
  induction run generalizing e with
  | nil => exact ⟨rfl, rfl⟩
  | cons packet rest ih =>
      obtain ⟨env, payload⟩ := packet
      obtain ⟨recent, stats⟩ := ih (handled d env payload e).2
      obtain ⟨first, second⟩ := handled_records d env payload e
      rw [handleAll_cons, blocksAll, List.foldl_append, List.foldl_append, recent, stats, first,
        second]
      exact ⟨rfl, rfl⟩

private theorem describes_entryOf (now : Time) (event : AuditEvent) :
    Describes (entryOf now event) event :=
  ⟨rfl, rfl, rfl, rfl, rfl, rfl, rfl, rfl⟩

private theorem blocksAll_describe (run : List (Env × Option Bytes)) (e : Engine) :
    List.Forall₂ Describes (blocksAll d run e) ((trailAll d run e).filter blocking) := by
  induction run generalizing e with
  | nil => exact .nil
  | cons packet rest ih =>
      obtain ⟨env, payload⟩ := packet
      rw [blocksAll, trailAll, List.filter_append]
      refine List.rel_append ?_ (ih _)
      unfold blockOf
      rw [List.forall₂_map_left_iff, List.forall₂_same]
      exact fun event _ => describes_entryOf env.blockTime event

private theorem rtake_rtake_append {α : Type} (n : Nat) (xs ys : List α) :
    (xs.rtake n ++ ys).rtake n = (xs ++ ys).rtake n := by
  simp only [List.rtake_eq_reverse_take_reverse, List.reverse_append, List.reverse_reverse,
    List.take_append, List.take_take, List.length_reverse]
  rw [Nat.min_eq_left (Nat.sub_le _ _)]

private theorem appendRecent_eq {recent : List BlockLogEntry}
    (short : recent.length ≤ maxRecentBlocks)
    (entry : BlockLogEntry) :
    appendRecent recent entry = (recent ++ [entry]).rtake maxRecentBlocks := by
  have positive : 0 < maxRecentBlocks := by decide
  unfold appendRecent List.rtake
  rw [List.length_append, List.length_singleton]
  split
  · next full =>
      rw [List.drop_append_of_le_length (by omega),
        show recent.length + 1 - maxRecentBlocks = 1 by omega]
  · next room => rw [show recent.length + 1 - maxRecentBlocks = 0 by omega, List.drop_zero]

private theorem length_rtake_le {α : Type} (n : Nat) (l : List α) : (l.rtake n).length ≤ n := by
  unfold List.rtake
  rw [List.length_drop]
  omega

private theorem foldl_appendRecent (entries recent : List BlockLogEntry)
    (short : recent.length ≤ maxRecentBlocks) :
    entries.foldl appendRecent recent = (recent ++ entries).rtake maxRecentBlocks := by
  induction entries generalizing recent with
  | nil =>
      unfold List.rtake
      rw [List.append_nil, List.foldl_nil, show recent.length - maxRecentBlocks = 0 by omega,
        List.drop_zero]
  | cons entry entries ih =>
      rw [List.foldl_cons, appendRecent_eq short, ih _ (length_rtake_le _ _), rtake_rtake_append,
        List.append_assoc, List.singleton_append]

private theorem decided_eq_countP (run : List (Env × Option Bytes))
    (undisturbed : Undisturbed d run e) :
    decided 0 (handleAll d run e).1 = ((trailAll d run e).countP fun event => !blocking event) := by
  induction run generalizing e with
  | nil => rfl
  | cons packet rest ih =>
      obtain ⟨env, payload⟩ := packet
      obtain ⟨quiet, later⟩ := undisturbed
      rw [packetHandler_eq] at later
      have passes := passes_iff quiet
      rw [handleAll_cons, Counters.decided_cons, ih later, trailAll, List.countP_append]
      push_cast
      congr 1
      by_cases passed : (handled d env payload e).1 = 0
      · obtain ⟨event, told, passing⟩ := passes.mp passed
        simp [Except.toOption, passed, told, passing]
      · have none_passing :
            ∀ event, trail d env payload e = some event → blocking event = true := by
          intro event told
          by_contra other
          exact passed (passes.mpr ⟨event, told, by simpa using other⟩)
        cases told : trail d env payload e with
        | none => simp [Except.toOption, passed]
        | some event => simp [Except.toOption, passed, none_passing event told]

end Runs

/-- One story. Over every run of packets of an engine with an audit logger, in any surroundings,
the log of blocks is the last hundred of the blocks among the events that it handed to the logger,
in their order and with their fields, and the statistics count their reasons. If nothing panics,
the counters count these events as well: those that let a packet pass are the packets allowed, and
all other packets are blocked, those among them that were never evaluated without an event. -/
theorem ledgers_agree (d : Decoder) (run : List (Env × Option Bytes)) (e : Engine)
    (logging : e.auditLogger = true) (short : e.recentBlocks.length ≤ maxRecentBlocks) :
    let after := (handleAll d run e).2
    ∃ calls, after.outbox = e.outbox ++ calls ∧
      (∃ entries, List.Forall₂ Describes entries ((logs calls).filter blocking) ∧
        after.recentBlocks = (e.recentBlocks ++ entries).rtake maxRecentBlocks ∧
        after.blockStats = entries.foldl (fun stats entry => countReason stats entry.reason)
          e.blockStats) ∧
      (Undisturbed d run e →
        after.packetsProcessed = e.packetsProcessed + run.length ∧
        after.packetsAllowed =
          e.packetsAllowed + ((logs calls).countP fun event => !blocking event) ∧
        after.packetsBlocked = e.packetsBlocked +
          (run.length - ((logs calls).countP fun event => !blocking event))) := by
  dsimp only
  obtain ⟨recent, stats⟩ := run_records (d := d) run e
  refine ⟨madeAll d run e, handleAll_outbox d run e, ?_⟩
  rw [logs_madeAll d run e logging]
  refine ⟨⟨blocksAll d run e, blocksAll_describe run e, ?_, stats⟩, fun undisturbed => ?_⟩
  · rw [recent, foldl_appendRecent _ _ short]
  · obtain ⟨total, sum⟩ := Counters.run_tally run undisturbed
    have allowed := decided_eq_countP run undisturbed
    simp only [tally, Prod.mk_add_mk, Prod.mk.injEq] at total
    obtain ⟨processed, first, second⟩ := total
    refine ⟨processed, by rw [first, allowed], ?_⟩
    rw [second, ← allowed]
    omega

/-- Surroundings in which the evaluator denies every packet. -/
def refusing : Env :=
  { Quiet.quietEnv Evasion.everywhere 0 with
    evaluate := fun _ => .returned (some ⟨false, Opa.Evaluator.text "no"⟩) }

/-- One packet that is denied and one that has no payload. -/
def twoDrops : List (Env × Option Bytes) :=
  [(refusing, some Counters.wholeSyn), (Quiet.quietEnv Evasion.everywhere 9, none)]

def loggingEngine : Engine := { Quiet.freshEngine with auditLogger := true }

theorem twoDrops_agree :
    let after := (handleAll Packet.Parser.fixedFields twoDrops loggingEngine).2
    (logs after.outbox).length = 1 ∧
      ∃ entries, List.Forall₂ Describes entries ((logs after.outbox).filter blocking) ∧
        after.recentBlocks = entries.rtake maxRecentBlocks := by
  obtain ⟨calls, outbox, ⟨entries, described, recent, -⟩, -⟩ :=
    ledgers_agree Packet.Parser.fixedFields twoDrops loggingEngine rfl (Nat.zero_le _)
  rw [show loggingEngine.outbox = [] from rfl, List.nil_append] at outbox
  dsimp only
  rw [outbox]
  refine ⟨?_, entries, described, recent⟩
  rw [← outbox]
  decide +kernel

section Logger

variable {d : Decoder} {env : Env} {payload : Option Bytes} {e : Engine}

private theorem course_auditLog (env : Env) (g : AuditEvent → Reply Unit) (pi : PacketInfo)
    (size : Nat)
    (e : Engine) : course { env with auditLog := g } pi size e = course env pi size e :=
  rfl

private theorem result_auditLog (env : Env) (g : AuditEvent → Reply Unit) (pi : PacketInfo)
    (e : Engine)
    (ending : Ending)
    (same : ∀ event, eventOf env pi ending = some event → g event = env.auditLog event) :
    result { env with auditLog := g } pi (e, ending) = result env pi (e, ending) := by
  have asked : answer { env with auditLog := g } pi e ending = answer env pi e ending := by
    cases ending with
    | panicked value => rfl
    | blocked tid reason alert =>
        have reply := same _ rfl
        unfold answer logged
        dsimp only
        rw [← reply]
        rfl
    | accepted tid type reason given =>
        have reply := same _ rfl
        unfold answer logged
        dsimp only
        rw [← reply]
        rfl
  have made : settled { env with auditLog := g } pi e ending = settled env pi e ending := by
    cases ending with
    | panicked value => rfl
    | blocked tid reason alert =>
        have reply := same _ rfl
        unfold settled calls logged
        dsimp only
        rw [← reply]
        rfl
    | accepted tid type reason given => rfl
  unfold result
  dsimp only
  rw [asked, made]

private theorem panicked_refused (pi : PacketInfo) (ending : Ending) {event : AuditEvent}
    {value : String}
    (logging : e.auditLogger = true) (told : eventOf env pi ending = some event)
    (panicked : env.auditLog event = .panicked value) :
    (result env pi (e, ending)).1.allowed = false := by
  have failed : logged env e event = .error value := by
    unfold logged
    rw [if_pos logging, panicked]
    rfl
  cases ending with
  | panicked text => exact absurd told nofun
  | blocked tid reason alert => exact blocked_refused env pi e tid reason alert
  | accepted tid type reason given =>
      obtain rfl := Option.some.inj told
      unfold result answer
      dsimp only
      rw [failed]
      rfl

end Logger

/-- One event for each packet that is evaluated. What becomes of a packet depends on the audit
logger only through its reply to that event, and it does depend on it: if the logger panics
there, the packet is dropped. A packet that is not evaluated leaves the logger alone. -/
theorem audited_once (d : Decoder) (env : Env) (payload : Option Bytes) (e : Engine) :
    (∀ g : AuditEvent → Reply Unit,
      (∀ event, trail d env payload e = some event → g event = env.auditLog event) →
      packetHandler d { env with auditLog := g } payload e = packetHandler d env payload e) ∧
    ∀ event value, e.auditLogger = true → trail d env payload e = some event →
      env.auditLog event = .panicked value → (packetHandler d env payload e).1 = .ok 1 := by
  constructor
  · intro g same
    have handling : handled d { env with auditLog := g } payload e = handled d env payload e := by
      unfold trail at same
      unfold handled
      cases payload with
      | none => rfl
      | some raw =>
          dsimp only at same ⊢
          cases parsed : ParsePacket d raw with
          | error err => rfl
          | ok pi =>
              rw [parsed] at same
              dsimp only
              unfold evaluated
              rw [course_auditLog]
              exact congrArg (decision env raw) (result_auditLog env g pi _ _ same)
    rw [packetHandler_eq, packetHandler_eq, handling]
  · intro event value logging told panicked
    rw [packetHandler_eq]
    unfold trail at told
    unfold handled
    cases payload with
    | none => exact absurd told nofun
    | some raw =>
        dsimp only at told ⊢
        cases parsed : ParsePacket d raw with
        | error err => rfl
        | ok pi =>
            rw [parsed] at told
            dsimp only at told ⊢
            obtain ⟨table, limiter, same⟩ := course_engine env pi raw.length e
            have configured : (course env pi raw.length e).1.auditLogger = true := by
              rw [same]
              exact logging
            have refused := panicked_refused pi _ configured told panicked
            unfold evaluated decision
            rw [if_neg (by simp [refused])]

end L3Firewall.Pipeline.Ledger
