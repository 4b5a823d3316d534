/- Pipeline/Alerts
   source: internal/engine/engine.go, internal/alert/alert.go, cmd/server/main.go
   digest: The packets that are denied with an alert and the webhook requests that tell of them,
   over whole runs of the engine. -/

import L3Firewall.Alert.Webhook
import L3Firewall.Pipeline.Ledger

set_option autoImplicit false
set_option relaxedAutoImplicit false

namespace L3Firewall.Pipeline.Alerts

open Foundation.Cooldown (Apart)
open Foundation.Utf8 (encode sanitize)
open Foundation.Rfc3339 (clock)
open Alert.Webhook
open Packet.Parser (Bytes Decoder PacketInfo ParsePacket)
open Opa.Evaluator (Text)
open Handlers (Env Engine Call handleAll)
open Course

def typeOf : Handlers.AlertType → AlertType
  | .connLimit => .connLimit
  | .opaError => .opaError

def alertEvent (timestamp : Nat) (alert : Handlers.AlertType × Text) : AlertEvent where
  type := typeOf alert.1
  message := alert.2
  source := encode "engine".toList
  timestamp := timestamp

/-- The calls of Send among the calls of the engine. -/
def sends (calls : List Call) : Calls :=
  calls.filterMap fun
    | .send type message timestamp now => some (now, alertEvent timestamp (type, message))
    | .log _ | .writeBlock _ => none

def mainRouter (webhookURL : List Char) : Option Router :=
  if webhookURL = [] then none else some (NewRouter ⟨webhookURL, 0⟩)

/-- The requests that come of the calls of the engine. -/
def requests (webhookURL : List Char) (calls : List Call) : Calls :=
  fired (mainRouter webhookURL) (sends calls)

def mainCooldown : Nat := effective ⟨[], 0⟩

/-- The packet is denied for its connections or for want of a decision, with this alert. -/
def Denied (d : Decoder) (env : Env) (payload : Option Bytes) (e : Engine)
    (alert : Handlers.AlertType × Text) : Prop :=
  ∃ raw pi tid reason, payload = some raw ∧ ParsePacket d raw = .ok pi ∧
    (course env pi raw.length e).2 = .blocked tid reason (some alert)

section Calls

variable {d : Decoder} {env : Env} {payload : Option Bytes} {e : Engine} {pi : PacketInfo}
  {run : List (Env × Option Bytes)} {alert : Handlers.AlertType × Text}

private theorem sends_append (first second : List Call) :
    sends (first ++ second) = sends first ++ sends second :=
  List.filterMap_append

private theorem sends_logCalls (e : Engine) (event : Handlers.AuditEvent) :
    sends (logCalls e event) = [] := by
  unfold logCalls
  split <;> rfl

private theorem sends_captureCalls (e : Engine) (raw : Bytes) :
    sends (captureCalls e raw) = [] := by
  unfold captureCalls
  split <;> rfl

private theorem logged_ok (quiet : ∀ event value, env.auditLog event ≠ .panicked value) (e : Engine)
    (event : Handlers.AuditEvent) : logged env e event = .ok () := by
  unfold logged
  split
  · cases reply : env.auditLog event with
    | returned _ => rfl
    | failed _ => rfl
    | panicked value => exact absurd reply (quiet event value)
  · rfl

private theorem mem_sends_calls {ending : Ending} {call : Nat × AlertEvent}
    (sent : call ∈ sends (calls env pi e ending)) :
    ∃ tid reason alert, ending = .blocked tid reason (some alert) ∧
      call = (env.sendTime, alertEvent env.alertTime alert) := by
  cases ending with
  | panicked value => exact absurd sent List.not_mem_nil
  | accepted tid type reason result =>
      rw [calls, sends_logCalls] at sent
      exact absurd sent List.not_mem_nil
  | blocked tid reason alert =>
      rw [calls, sends_append, sends_logCalls, List.nil_append] at sent
      split at sent
      · cases alert with
        | none => exact absurd sent List.not_mem_nil
        | some alert =>
            refine ⟨tid, reason, alert, rfl, ?_⟩
            unfold sendCalls at sent
            dsimp only at sent
            split at sent
            · exact List.mem_singleton.mp sent
            · exact absurd sent List.not_mem_nil
      · exact absurd sent List.not_mem_nil

private theorem length_sends_calls (ending : Ending) :
    (sends (calls env pi e ending)).length ≤ 1 := by
  cases ending with
  | panicked value => exact Nat.zero_le 1
  | accepted tid type reason result =>
      rw [calls, sends_logCalls]
      exact Nat.zero_le 1
  | blocked tid reason alert =>
      rw [calls, sends_append, sends_logCalls, List.nil_append]
      split
      · unfold sendCalls
        split
        · exact Nat.zero_le 1
        · split
          · exact Nat.le_refl 1
          · exact Nat.zero_le 1
      · exact Nat.zero_le 1

private theorem sends_made_parsed {raw : Bytes} (parsed : ParsePacket d raw = .ok pi) :
    sends (made d env (some raw) e) =
      sends (calls env pi (course env pi raw.length e).1 (course env pi raw.length e).2) := by
  rw [made_parsed parsed, sends_append]
  split
  · exact List.append_nil _
  · rw [sends_captureCalls, List.append_nil]

private theorem parsed_of_sent {call : Nat × AlertEvent}
    (sent : call ∈ sends (made d env payload e)) :
    ∃ raw pi, payload = some raw ∧ ParsePacket d raw = .ok pi := by
  cases payload with
  | none =>
      rw [made_dropped rfl] at sent
      exact absurd sent List.not_mem_nil
  | some raw =>
      cases parsed : ParsePacket d raw with
      | error err =>
          rw [made_dropped (by unfold handled; dsimp only; rw [parsed])] at sent
          exact absurd sent List.not_mem_nil
      | ok pi => exact ⟨raw, pi, rfl, parsed⟩

private theorem denied_of_sent {call : Nat × AlertEvent}
    (sent : call ∈ sends (made d env payload e)) :
    ∃ alert, Denied d env payload e alert ∧
      call = (env.sendTime, alertEvent env.alertTime alert) := by
  obtain ⟨raw, pi, rfl, parsed⟩ := parsed_of_sent sent
  rw [sends_made_parsed parsed] at sent
  obtain ⟨tid, reason, alert, ending, same⟩ := mem_sends_calls sent
  exact ⟨alert, ⟨raw, pi, tid, reason, rfl, parsed, ending⟩, same⟩

private theorem course_alertRouter (env : Env) (pi : PacketInfo) (size : Nat) (e : Engine) :
    (course env pi size e).1.alertRouter = e.alertRouter := by
  have same := congrArg Engine.alertRouter (course_settings env pi size e)
  exact same

private theorem sent_of_denied (routed : e.alertRouter = true)
    (quiet : ∀ event value, env.auditLog event ≠ .panicked value)
    (denied : Denied d env payload e alert) :
    (env.sendTime, alertEvent env.alertTime alert) ∈ sends (made d env payload e) := by
  obtain ⟨raw, pi, tid, reason, rfl, parsed, ending⟩ := denied
  have configured := (course_alertRouter env pi raw.length e).trans routed
  rw [sends_made_parsed parsed, ending, calls, logged_ok quiet, sends_append, sends_logCalls]
  dsimp only
  rw [sendCalls, if_pos configured]
  exact List.mem_cons_self

private theorem mem_sends_madeAll {call : Nat × AlertEvent} : call ∈ sends (madeAll d run e) ↔
    ∃ before env payload after, run = before ++ (env, payload) :: after ∧
      call ∈ sends (made d env payload (handleAll d before e).2) := by
  induction run generalizing e with
  | nil => simp [madeAll, sends]
  | cons first rest ih =>
      obtain ⟨env, payload⟩ := first
      rw [madeAll, sends_append, List.mem_append, ih]
      constructor
      · rintro (sent | ⟨before, env', payload', after, rfl, sent⟩)
        · exact ⟨[], env, payload, rest, rfl, sent⟩
        · refine ⟨(env, payload) :: before, env', payload', after, rfl, ?_⟩
          rw [handleAll_cons]
          exact sent
      · rintro ⟨before, env', payload', after, split, sent⟩
        cases before with
        | nil =>
            obtain ⟨same, rfl⟩ := List.cons.inj split
            obtain ⟨rfl, rfl⟩ := Prod.mk.inj same
            exact .inl sent
        | cons one before =>
            obtain ⟨rfl, rfl⟩ := List.cons.inj split
            rw [handleAll_cons] at sent
            exact .inr ⟨before, env', payload', after, rfl, sent⟩

private theorem sends_times (run : List (Env × Option Bytes)) (e : Engine) :
    ((sends (madeAll d run e)).map Prod.fst).Sublist (run.map fun packet => packet.1.sendTime) := by
  induction run generalizing e with
  | nil => exact List.Sublist.refl []
  | cons packet rest ih =>
      obtain ⟨env, payload⟩ := packet
      rw [madeAll, sends_append, List.map_append, List.map_cons]
      refine (?_ : List.Sublist _ [env.sendTime]).append (ih _)
      cases sent : sends (made d env payload e) with
      | nil => exact List.nil_sublist _
      | cons call more =>
          have member : call ∈ sends (made d env payload e) := sent ▸ List.mem_cons_self
          obtain ⟨raw, pi, rfl, parsed⟩ := parsed_of_sent member
          obtain ⟨alert, -, rfl⟩ := denied_of_sent member
          have single : (sends (calls env pi (course env pi raw.length e).1
              (course env pi raw.length e).2)).length ≤ 1 := length_sends_calls _
          rw [← sends_made_parsed parsed, sent, List.length_cons] at single
          obtain rfl : more = [] := List.length_eq_zero_iff.mp (by omega)
          exact List.Sublist.refl _

private theorem handleAll_alertRouter (run : List (Env × Option Bytes)) (e : Engine) :
    (handleAll d run e).2.alertRouter = e.alertRouter := by
  induction run generalizing e with
  | nil => rfl
  | cons packet rest ih =>
      obtain ⟨env, payload⟩ := packet
      have same := congrArg Engine.alertRouter (handled_settings d env payload e)
      rw [handleAll_cons]
      exact (ih _).trans same

end Calls

/-- Over every run of packets the webhook is told of denials for connections and for want of a
decision as often as the cooldown allows and no oftener: two requests of one type are thirty
seconds apart, each such denial that the audit logger does not panic on comes within thirty
seconds after a request of its type, and no schedule that keeps the thirty seconds tells of
more. -/
theorem denials_announced (d : Decoder) (url : List Char) (named : url ≠ [])
    (run : List (Env × Option Bytes)) (e : Engine) (fresh : e.outbox = [])
    (routed : e.alertRouter = true)
    (times : (run.map fun packet => packet.1.sendTime).Pairwise (· ≤ ·)) (type : AlertType) :
    let calls := (handleAll d run e).2.outbox
    let sent := timesOf type (requests url calls)
    sent.IsChain (Apart mainCooldown) ∧
      (∀ before env payload after alert, run = before ++ (env, payload) :: after →
        Denied d env payload (handleAll d before e).2 alert → typeOf alert.1 = type →
        (∀ event value, env.auditLog event ≠ .panicked value) →
        ∃ s ∈ sent, s ≤ env.sendTime ∧ env.sendTime < s + mainCooldown) ∧
      ∀ choice : List Nat, choice.Sublist (timesOf type (sends calls)) →
        choice.IsChain (Apart mainCooldown) → choice.length ≤ sent.length := by
  have outbox := handleAll_outbox d run e
  rw [fresh, List.nil_append] at outbox
  have sorted := times.sublist (sends_times (d := d) run e)
  obtain ⟨apart, covered, most⟩ := @timesOf_new ⟨url, 0⟩ _ named sorted type
  dsimp only
  rw [outbox, requests, mainRouter, if_neg named]
  refine ⟨apart, fun before env payload after alert split denied own quiet => ?_, most⟩
  have configured := (handleAll_alertRouter (d := d) before e).trans routed
  have call := mem_sends_madeAll.mpr
    ⟨before, env, payload, after, split, sent_of_denied configured quiet denied⟩
  refine covered env.sendTime (List.mem_map.mpr ⟨_, List.mem_filter.mpr ⟨call, ?_⟩, rfl⟩)
  exact beq_iff_eq.mpr own

/-- A packet at a time at which the policy has no decision. -/
def undecided (now : Nat) : Env × Option Bytes :=
  ({ Quiet.quietEnv Evasion.everywhere now with evaluate := fun _ => .failed "conflict" },
    some Counters.wholeSyn)

def threeUndecided : List (Env × Option Bytes) :=
  [undecided 0, undecided 5000000000, undecided 31000000000]

def routedEngine : Engine := { Quiet.freshEngine with alertRouter := true }

theorem threeUndecided_announced :
    let sent := timesOf .opaError (requests "hook".toList
      (handleAll Packet.Parser.fixedFields threeUndecided routedEngine).2.outbox)
    sent = [10000000, 31010000000] ∧ sent.IsChain (Apart mainCooldown) :=
  ⟨by decide +kernel, (denials_announced Packet.Parser.fixedFields "hook".toList (by decide)
    threeUndecided routedEngine rfl rfl (by decide +kernel) .opaError).1⟩

/-- No request without a denial. Every request of a run is for a packet of it that was denied with
this alert at this time, and what the receiver reads is the alert's type and message, whatever
bytes the message has: those that are no UTF-8 are replaced. -/
theorem requests_truthful (d : Decoder) (url : List Char) (run : List (Env × Option Bytes))
    (e : Engine) (fresh : e.outbox = []) :
    ∀ request ∈ requests url (handleAll d run e).2.outbox,
      ∃ before env payload after alert, run = before ++ (env, payload) :: after ∧
        Denied d env payload (handleAll d before e).2 alert ∧ request.1 = env.sendTime ∧
        readNotice (fire request.2) = some
          { eventType := encode "l3_firewall_alert".toList
            message := sanitize alert.2
            source := encode "engine".toList
            timestamp := encode (clock (env.alertTime / 1000000000) ++ ['Z'])
            type := encode (typeOf alert.1).String } := by
  intro request asked
  have call := (fired_sublist _ _).subset asked
  rw [handleAll_outbox, fresh, List.nil_append] at call
  obtain ⟨before, env, payload, after, split, sent⟩ := mem_sends_madeAll.mp call
  obtain ⟨alert, denied, rfl⟩ := denied_of_sent sent
  refine ⟨before, env, payload, after, alert, split, denied, rfl, ?_⟩
  rw [readNotice_fire]
  simp only [alertEvent, Foundation.Utf8.sanitize_encode]

theorem threeUndecided_read :
    let made := requests "hook".toList
      (handleAll Packet.Parser.fixedFields threeUndecided routedEngine).2.outbox
    made.length = 2 ∧ ∀ request ∈ made, (readNotice (fire request.2)).isSome = true := by
  refine ⟨by decide +kernel, fun request member => ?_⟩
  obtain ⟨before, env, payload, after, alert, -, -, -, read⟩ :=
    requests_truthful Packet.Parser.fixedFields "hook".toList threeUndecided routedEngine rfl
      request member
  rw [read]
  rfl

end L3Firewall.Pipeline.Alerts
