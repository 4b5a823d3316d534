/- Pipeline/Frame
   source: internal/engine/engine.go
   digest: What the handling of a packet cannot change. -/

import L3Firewall.Pipeline.Handlers

set_option autoImplicit false
set_option relaxedAutoImplicit false

namespace L3Firewall.Pipeline.Frame

open Foundation.Recover
open Foundation.Recover.Action
open Conntrack.FlowTable (Time Table Flow)
open Ratelimit.Buckets (Limiter)
open Packet.Parser (Bytes Decoder PacketInfo)
open Opa.Document (Input)
open Opa.Evaluator (Text Result)
open Handlers

/-- A property that does not read the counters, the statistics, the connection table, the rate
limiter or the outbox. -/
structure Stable (p : Engine → Prop) : Prop where
  processed : ∀ e, p e → p e.countProcessed
  allowed : ∀ e, p e → p e.countAllowed
  blocked : ∀ e, p e → p e.countBlocked
  record : ∀ (now : Time) (pi : PacketInfo) (reason : Text) (tid : String) (e : Engine),
    p e → p (e.recordBlock now pi reason tid)
  table : ∀ (t : Table) (e : Engine), p e → p { e with conntrack := some t }
  limiter : ∀ (l : Limiter) (e : Engine), p e → p { e with ratelimit := some l }
  handed : ∀ (calls : List Call) (e : Engine), p e → p (e.handed calls)

variable {p : Engine → Prop} {env : Env} {pi : PacketInfo} {tid : String}

private theorem attempt_keeps {α : Type} (call : Except String α) : (attempt call).Keeps p := by
  cases call with
  | ok a => exact keeps_pure a
  | error value => exact keeps_fail value

private theorem deref_keeps {α : Type} (component : Option α) : (deref component).Keeps p := by
  cases component with
  | some a => exact keeps_pure a
  | none => exact keeps_fail nilPointer

private theorem newTraceID_keeps : (newTraceID env).Keeps p := by
  unfold newTraceID
  split
  · exact keeps_pure _
  · exact keeps_fail _

private theorem addCountries_keeps (input : Input) : (addCountries env pi input).Keeps p := by
  refine keeps_read_bind fun e => ?_
  split
  · refine keeps_bind (attempt_keeps _) fun src => ?_
    exact keeps_bind (attempt_keeps _) fun dst => keeps_pure _
  · exact keeps_pure input

/-- A property that nothing after the connection table is written can change. -/
structure Passive (p : Engine → Prop) : Prop where
  allowed : ∀ e, p e → p e.countAllowed
  blocked : ∀ e, p e → p e.countBlocked
  record : ∀ (now : Time) (pi : PacketInfo) (reason : Text) (tid : String) (e : Engine),
    p e → p (e.recordBlock now pi reason tid)
  limiter : ∀ (l : Limiter) (e : Engine), p e → p { e with ratelimit := some l }
  handed : ∀ (calls : List Call) (e : Engine), p e → p (e.handed calls)

private theorem Stable.passive (stable : Stable p) : Passive p :=
  ⟨stable.allowed, stable.blocked, stable.record, stable.limiter, stable.handed⟩

section Passive

variable (passive : Passive p)
include passive

private theorem logAudit_keeps (type : EventType) (reason : Text) :
    (logAudit env type tid pi reason).Keeps p := by
  refine keeps_read_bind fun e => ?_
  split
  · refine keeps_bind (keeps_update (passive.handed _)) fun _ => ?_
    split
    · exact keeps_pure ()
    · exact keeps_pure ()
    · exact keeps_fail _
  · exact keeps_pure ()

private theorem fireAlert_keeps (type : AlertType) (message : Text) :
    (fireAlert env type message).Keeps p := by
  refine keeps_read_bind fun e => ?_
  split
  · exact keeps_bind (keeps_update (passive.handed _)) fun _ => attempt_keeps _
  · exact keeps_pure ()

private theorem capture_keeps (raw : Bytes) : (capture env raw).Keeps p := by
  refine keeps_read_bind fun e => ?_
  split
  · refine keeps_bind (keeps_update (passive.handed _)) fun _ => ?_
    split
    · exact keeps_pure ()
    · exact keeps_pure ()
    · exact keeps_fail _
  · exact keeps_pure ()

theorem block_keeps (reason : Text) : (block env pi tid reason).Keeps p := by
  refine keeps_bind (keeps_update passive.blocked) fun _ => ?_
  refine keeps_bind (keeps_update (passive.record _ _ _ _)) fun _ => ?_
  exact keeps_bind (logAudit_keeps passive _ _) fun _ => keeps_pure _

theorem blockAndAlert_keeps (reason : Text) (type : AlertType) (message : Text) :
    (blockAndAlert env pi tid reason type message).Keeps p := by
  refine keeps_bind (block_keeps passive reason) fun _ => ?_
  exact keeps_bind (fireAlert_keeps passive _ _) fun _ => keeps_pure _

private theorem accept_keeps (type : EventType) (reason : Text) (result : Result) :
    (accept env pi tid type reason result).Keeps p := by
  refine keeps_bind (keeps_update passive.allowed) fun _ => ?_
  exact keeps_bind (logAudit_keeps passive _ _) fun _ => keeps_pure _

theorem gatherRates_keeps (size : Nat) (flow : Flow) :
    (gatherRates env pi size tid flow).Keeps p := by
  refine keeps_read_bind fun e => ?_
  refine keeps_bind (deref_keeps _) fun l => ?_
  refine keeps_bind (keeps_update (passive.limiter _)) fun _ => ?_
  split
  · exact keeps_bind (block_keeps passive _) fun _ => keeps_pure _
  · exact keeps_bind (deref_keeps _) fun _ => keeps_pure _

private theorem gather_leads {q : Engine → Prop} (counted : ∀ e, q e → p e.countProcessed)
    (table : ∀ (t : Table) (e : Engine), p e → p { e with conntrack := some t }) (size : Nat) :
    (gather env pi size).Leads q p := by
  refine leads_bind (x := update Engine.countProcessed) counted fun _ => ?_
  refine keeps_bind newTraceID_keeps fun tid => ?_
  refine keeps_read_bind fun e => ?_
  refine keeps_bind (deref_keeps _) fun t => ?_
  refine keeps_bind (keeps_update (table _)) fun _ => ?_
  split
  · exact keeps_bind (blockAndAlert_keeps passive _ _ _) fun _ => keeps_pure _
  · refine keeps_bind (keeps_update (table _)) fun _ => ?_
    split
    · exact keeps_bind (block_keeps passive _) fun _ => keeps_pure _
    · exact gatherRates_keeps passive size _

private theorem judge_keeps (input : Input) : (judge env pi tid input).Keeps p := by
  refine keeps_read_bind fun e => ?_
  split
  · split
    · exact keeps_fail _
    · exact blockAndAlert_keeps passive _ _ _
    · exact keeps_fail _
    · split
      · exact accept_keeps passive _ _ _
      · split
        · exact accept_keeps passive _ _ _
        · exact block_keeps passive _
  · split
    · exact block_keeps passive _
    · exact accept_keeps passive _ _ _

theorem conclude_keeps (input : Input) : (conclude env pi tid input).Keeps p := by
  refine keeps_read_bind fun e => ?_
  split
  · exact block_keeps passive _
  · exact keeps_bind (addCountries_keeps _) fun input => judge_keeps passive input

private theorem evaluateBody_leads {q : Engine → Prop} (counted : ∀ e, q e → p e.countProcessed)
    (table : ∀ (t : Table) (e : Engine), p e → p { e with conntrack := some t }) (size : Nat) :
    (evaluateBody env pi size).Leads q p := by
  refine leads_bind (gather_leads passive counted table size) fun gathered => ?_
  split
  · exact keeps_pure _
  · exact conclude_keeps passive _

end Passive

section Stable

variable (stable : Stable p)
include stable

private theorem evaluatePacket_keeps (size : Nat) : (evaluatePacket env pi size).Keeps p := by
  refine keeps_recover ?_ fun value => ?_
  · exact evaluateBody_leads stable.passive stable.processed stable.table size
  · refine keeps_bind (keeps_update fun e holds => ?_) fun _ => keeps_pure _
    exact stable.blocked _ (stable.processed e holds)

theorem packetHandler_keeps (d : Decoder) (env : Env) (payload : Option Bytes) :
    (packetHandler d env payload).Keeps p := by
  have dropped : ∀ e, p e → p e.countProcessed.countBlocked := fun e holds =>
    stable.blocked _ (stable.processed e holds)
  refine keeps_recover ?_ fun value => ?_
  · unfold handleBody
    split
    · exact keeps_bind (keeps_update dropped) fun _ => keeps_pure _
    · split
      · exact keeps_bind (keeps_update dropped) fun _ => keeps_pure _
      · refine keeps_bind (evaluatePacket_keeps stable _) fun result => ?_
        split
        · exact keeps_pure _
        · exact keeps_bind (capture_keeps stable.passive _) fun _ => keeps_pure _
  · refine keeps_bind (keeps_update fun e holds => ?_) fun _ => keeps_pure _
    exact stable.allowed _ (stable.processed e holds)

end Stable

end L3Firewall.Pipeline.Frame
