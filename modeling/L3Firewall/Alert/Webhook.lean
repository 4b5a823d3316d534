/- Alert/Webhook
   source: internal/alert/alert.go
   digest: The alert router: one webhook request for a type of alert and a cooldown, as many as the
   cooldown allows, and a payload that the message cannot forge. -/

import L3Firewall.Foundation.Cooldown
import L3Firewall.Foundation.FiniteMap
import L3Firewall.Foundation.JsonRecord
import L3Firewall.Foundation.Rfc3339

set_option autoImplicit false
set_option relaxedAutoImplicit false

namespace L3Firewall.Alert.Webhook

open Foundation.Cooldown
open Foundation.FiniteMap
open Foundation.JsonRecord
open Foundation.Rfc3339 (clock)
open Foundation.Utf8

inductive AlertType
  | blockRate | portScan | connLimit | opaError | rateLimit
  deriving DecidableEq

def AlertType.String : AlertType → List Char
  | .blockRate => "block_rate".toList
  | .portScan => "port_scan".toList
  | .connLimit => "connection_limit".toList
  | .opaError => "opa_error".toList
  | .rateLimit => "rate_limit".toList

/-- The time in nanoseconds. -/
structure AlertEvent where
  type : AlertType
  message : Bytes
  source : Bytes
  timestamp : Nat

structure Config where
  webhookURL : List Char
  cooldown : Int

structure Router where
  cfg : Config
  lastSent : FMap AlertType Nat

def second : Int := 1000000000

def NewRouter (cfg : Config) : Router where
  cfg := if cfg.cooldown ≤ 0 then { cfg with cooldown := 30 * second } else cfg
  lastSent := ∅

/-- The event that is fired, if any. A nil router fires none. -/
def Send (r : Option Router) (now : Nat) (e : AlertEvent) : Option AlertEvent × Option Router :=
  match r with
  | none => (none, none)
  | some r =>
      if r.cfg.webhookURL = [] then (none, some r)
      else match r.lastSent.lookup e.type with
        | some last =>
            if (now : Int) - last < r.cfg.cooldown then (none, some r)
            else (some e, some { r with lastSent := r.lastSent.insert e.type now })
        | none => (some e, some { r with lastSent := r.lastSent.insert e.type now })

/-- The fields of the payload. A map is written with its keys in order. -/
def payload (e : AlertEvent) : List Field :=
  [⟨encode "event_type".toList, .text (encode "l3_firewall_alert".toList), false⟩,
    ⟨encode "message".toList, .text e.message, false⟩,
    ⟨encode "source".toList, .text e.source, false⟩,
    ⟨encode "timestamp".toList, .text (encode (clock (e.timestamp / 1000000000) ++ ['Z'])), false⟩,
    ⟨encode "type".toList, .text (encode e.type.String), false⟩]

def fire (e : AlertEvent) : Bytes := writeRecord (payload e)

abbrev Calls := List (Nat × AlertEvent)

/-- The events that a run of calls fires, with their times. -/
def fired : Option Router → Calls → Calls
  | _, [] => []
  | r, (now, e) :: rest =>
      ((Send r now e).1.map fun e => (now, e)).toList ++ fired (Send r now e).2 rest

def timesOf (type : AlertType) (calls : Calls) : List Nat :=
  (calls.filter fun call => call.2.type == type).map Prod.fst

section Cooldown

variable {r : Router} {now : Nat} {e : AlertEvent} {gap : Nat} {type : AlertType}

private theorem timesOf_own (now : Nat) (own : e.type = type) (rest : Calls) :
    timesOf type ((now, e) :: rest) = now :: timesOf type rest := by
  simp [timesOf, own]

private theorem timesOf_other (now : Nat) (other : e.type ≠ type) (rest : Calls) :
    timesOf type ((now, e) :: rest) = timesOf type rest := by
  simp [timesOf, other]

private theorem Send_early (url : r.cfg.webhookURL ≠ []) (cooldown : r.cfg.cooldown = gap)
    {last : Nat}
    (known : r.lastSent.lookup e.type = some last) (early : now < last + gap) :
    Send (some r) now e = (none, some r) := by
  have soon : (now : Int) - last < r.cfg.cooldown := by
    rw [cooldown]
    omega
  rw [Send, if_neg url, known]
  exact if_pos soon

private theorem Send_late (url : r.cfg.webhookURL ≠ []) (cooldown : r.cfg.cooldown = gap)
    (late : ∀ last, r.lastSent.lookup e.type = some last → ¬ now < last + gap) :
    Send (some r) now e = (some e, some { r with lastSent := r.lastSent.insert e.type now }) := by
  rw [Send, if_neg url]
  cases known : r.lastSent.lookup e.type with
  | none => rfl
  | some last =>
      have after : ¬ (now : Int) - last < r.cfg.cooldown := by
        have past := late last known
        rw [cooldown]
        omega
      exact if_neg after

private theorem timesOf_fired (url : r.cfg.webhookURL ≠ []) (cooldown : r.cfg.cooldown = gap)
    (type : AlertType) (calls : Calls) :
    timesOf type (fired (some r) calls) =
      keep gap (r.lastSent.lookup type) (timesOf type calls) := by
  induction calls generalizing r with
  | nil => cases r.lastSent.lookup type <;> rfl
  | cons call rest ih =>
      obtain ⟨now, e⟩ := call
      by_cases early : ∃ last, r.lastSent.lookup e.type = some last ∧ now < last + gap
      · obtain ⟨last, known, early⟩ := early
        have silent : fired (some r) ((now, e) :: rest) = fired (some r) rest := by
          rw [fired, Send_early url cooldown known early]
          rfl
        rw [silent, ih url cooldown]
        by_cases own : e.type = type
        · rw [timesOf_own now own, ← own, known, keep, if_pos early]
        · rw [timesOf_other now own]
      · have late : ∀ last, r.lastSent.lookup e.type = some last → ¬ now < last + gap :=
          fun last known soon => early ⟨last, known, soon⟩
        have sent : fired (some r) ((now, e) :: rest) = (now, e) ::
            fired (some { r with lastSent := r.lastSent.insert e.type now }) rest := by
          rw [fired, Send_late url cooldown late]
          rfl
        have later :=
          @ih { r with lastSent := r.lastSent.insert e.type now } url cooldown
        dsimp only at later
        rw [sent]
        by_cases own : e.type = type
        · rw [timesOf_own now own, timesOf_own now own, later, ← own, AList.lookup_insert]
          cases known : r.lastSent.lookup e.type with
          | none => rfl
          | some last => rw [keep, if_neg (late last known)]
        · rw [timesOf_other now own, timesOf_other now own, later,
            AList.lookup_insert_ne (Ne.symm own)]

end Cooldown

def effective (cfg : Config) : Nat := if cfg.cooldown ≤ 0 then 30000000000 else cfg.cooldown.toNat

private theorem NewRouter_cooldown (cfg : Config) :
    (NewRouter cfg).cfg.cooldown = effective cfg := by
  unfold NewRouter effective second
  split
  · rfl
  · dsimp only
    omega

private theorem effective_pos (cfg : Config) : 0 < effective cfg := by
  unfold effective
  split
  · decide
  · omega

private theorem NewRouter_webhookURL (cfg : Config) :
    (NewRouter cfg).cfg.webhookURL = cfg.webhookURL := by
  unfold NewRouter
  split <;> rfl

/-- The requests of a new router for one type of alert are as many as its cooldown allows, and
each call comes within the cooldown after one of them. -/
theorem timesOf_new {cfg : Config} {calls : Calls} (url : cfg.webhookURL ≠ [])
    (clock : (calls.map Prod.fst).Pairwise (· ≤ ·)) (type : AlertType) :
    (timesOf type (fired (some (NewRouter cfg)) calls)).IsChain (Apart (effective cfg)) ∧
      (∀ t ∈ timesOf type calls, ∃ s ∈ timesOf type (fired (some (NewRouter cfg)) calls),
        s ≤ t ∧ t < s + effective cfg) ∧
      ∀ choice : List Nat, choice.Sublist (timesOf type calls) →
        choice.IsChain (Apart (effective cfg)) →
        choice.length ≤ (timesOf type (fired (some (NewRouter cfg)) calls)).length := by
  have named : (NewRouter cfg).cfg.webhookURL ≠ [] := by
    rw [NewRouter_webhookURL]
    exact url
  have sorted : (timesOf type calls).Pairwise (· ≤ ·) :=
    clock.sublist (List.filter_sublist.map Prod.fst)
  rw [timesOf_fired named (NewRouter_cooldown cfg) type calls]
  exact keep_first (effective_pos cfg) sorted

theorem fired_sublist (r : Option Router) (calls : Calls) : (fired r calls).Sublist calls := by
  induction calls generalizing r with
  | nil => exact List.Sublist.refl []
  | cons call rest ih =>
      obtain ⟨now, e⟩ := call
      have first : (Send r now e).1 = none ∨ (Send r now e).1 = some e := by
        unfold Send
        repeat' split
        all_goals first | exact .inl rfl | exact .inr rfl
      rw [fired]
      rcases first with none | sent
      · rw [none]
        exact (ih _).cons _
      · rw [sent]
        exact (ih _).cons_cons _

section Payload

structure Notice where
  eventType : Bytes
  message : Bytes
  source : Bytes
  timestamp : Bytes
  type : Bytes
  deriving DecidableEq

def readNotice (body : Bytes) : Option Notice := do
  let members ← readRecord body
  return {
    eventType := ← textOf (encode "event_type".toList) members
    message := ← textOf (encode "message".toList) members
    source := ← textOf (encode "source".toList) members
    timestamp := ← textOf (encode "timestamp".toList) members
    type := ← textOf (encode "type".toList) members }

private theorem payload_nodup (e : AlertEvent) : ((payload e).map Field.name).Nodup := by
  show [encode "event_type".toList, encode "message".toList, encode "source".toList,
    encode "timestamp".toList, encode "type".toList].Nodup
  decide +kernel

private theorem payload_names (e : AlertEvent) : ∀ f ∈ payload e, sanitize f.name = f.name := by
  intro f member
  simp only [payload, List.mem_cons, List.not_mem_nil, or_false] at member
  rcases member with rfl | rfl | rfl | rfl | rfl <;> exact sanitize_encode _

theorem readNotice_fire (e : AlertEvent) : readNotice (fire e) = some
    { eventType := encode "l3_firewall_alert".toList
      message := sanitize e.message
      source := sanitize e.source
      timestamp := encode (clock (e.timestamp / 1000000000) ++ ['Z'])
      type := encode e.type.String } := by
  have reads (name s : Bytes) (member : ⟨name, .text s, false⟩ ∈ payload e) :=
    textOf_record (payload_nodup e) (payload_names e) member
  rw [readNotice, fire, readRecord_writeRecord, Option.bind_eq_bind, Option.bind_some,
    reads (encode "event_type".toList) (encode "l3_firewall_alert".toList) (by simp [payload]),
    reads (encode "message".toList) e.message (by simp [payload]),
    reads (encode "source".toList) e.source (by simp [payload]),
    reads (encode "timestamp".toList) (encode (clock (e.timestamp / 1000000000) ++ ['Z']))
      (by simp [payload]),
    reads (encode "type".toList) (encode e.type.String) (by simp [payload])]
  simp only [sanitize_encode]
  rfl

end Payload

end L3Firewall.Alert.Webhook
