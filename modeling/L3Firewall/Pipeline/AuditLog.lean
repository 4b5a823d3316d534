/- Pipeline/AuditLog
   source: internal/engine/engine.go, internal/audit/audit.go
   digest: The engine and its audit logger together: what becomes of the events of a run in the
   files of the log. -/

import L3Firewall.Audit.Lines
import L3Firewall.Pipeline.Ledger

set_option autoImplicit false
set_option relaxedAutoImplicit false

namespace L3Firewall.Pipeline.AuditLog

open Foundation.JsonRecord (readLines)
open Foundation.Recover (Reply)
open Foundation.Rfc3339 (wallClock)
open Audit.Lines
open Audit.Rotation (Log LogError Disk)
open Packet.Parser (Bytes Decoder)
open Handlers
open Course
open Ledger

def typeName : EventType → String
  | .packetBlock => "packet_block"
  | .packetAllow => "packet_allow"
  | .auditBlock => "audit_block"

/-- The zone of the local clock at a time, and how it prints the time. -/
structure LocalClock where
  zone : Audit.Rotation.Time → Int
  shown : Audit.Rotation.Time → String

def LocalClock.event (c : LocalClock) (e : AuditEvent) : Audit.Rotation.AuditEvent where
  timestamp := ⟨e.timestamp, c.zone e.timestamp, c.shown e.timestamp⟩
  type := typeName e.type
  traceID := e.traceID
  srcIP := e.srcIP
  dstIP := e.dstIP
  protocol := e.protocol
  srcPort := e.srcPort
  dstPort := e.dstPort
  packetSize := e.packetSize
  reason := e.reason

/-- The engine with its audit logger, and the warnings about events that were not logged. -/
structure Firewall where
  engine : Engine
  trail : Trail
  warnings : List (Audit.Rotation.AuditEvent × String)

/-- The surroundings of one packet, those of the logger included. -/
structure Scene where
  env : Env
  payload : Option Bytes
  answers : Answers

section Steps

variable (c : LocalClock)

def Firewall.reply (s : Firewall) (a : Answers) (event : AuditEvent) : Option LogError :=
  (Log (a.system (c.event event)) s.trail.logger s.trail.disk (c.event event)).1

def Firewall.log (a : Answers) (s : Firewall) (event : AuditEvent) : Firewall :=
  { s with
    trail := s.trail.log a (c.event event)
    warnings := s.warnings ++
      ((s.reply c a event).map fun err => (c.event event, err.text)).toList }

/-- The surroundings of the packet with this logger in them. -/
def Firewall.surroundings (s : Firewall) (scene : Scene) : Env :=
  { scene.env with
    auditLog := fun event =>
      match s.reply c scene.answers event with
      | none => .returned ()
      | some err => .failed err.text }

/-- The engine handles the packet, and the logger logs what it is handed. -/
def Firewall.step (d : Decoder) (s : Firewall) (scene : Scene) : Firewall :=
  let after := (packetHandler d (s.surroundings c scene) scene.payload s.engine).2
  (logs (after.outbox.drop s.engine.outbox.length)).foldl (Firewall.log c scene.answers)
    { s with engine := after }

def Firewall.run (d : Decoder) (s : Firewall) (scenes : List Scene) : Firewall :=
  scenes.foldl (Firewall.step c d) s

end Steps

section Accounts

variable {c : LocalClock} {d : Decoder} {start : Disk} {s : Firewall}

/-- The events of a run and what became of them: those in the files, and those that there is a
warning about. -/
structure Accounted (c : LocalClock) (start : Disk) (s : Firewall) (events : List AuditEvent) :
    Prop where
  sound : Sound start s.trail
  sublist : s.trail.accepted.Sublist (events.map c.event)
  all : (s.trail.accepted ++ s.warnings.map Prod.fst).Perm (events.map c.event)

private theorem Accounted.log {events : List AuditEvent} (books : Accounted c start s events)
    (a : Answers) (event : AuditEvent) :
    Accounted c start (s.log c a event) (events ++ [event]) := by
  obtain ⟨sound, sublist, all⟩ := books
  refine ⟨sound.log a (c.event event), ?_, ?_⟩
  · change (s.trail.accepted ++ _).Sublist _
    rw [List.map_append]
    refine sublist.append ?_
    split
    · exact List.Sublist.refl _
    · exact List.nil_sublist _
  · change ((s.trail.accepted ++ if (s.reply c a event).isNone then [c.event event] else []) ++
      (s.warnings ++ ((s.reply c a event).map fun err => (c.event event, err.text)).toList).map
        Prod.fst).Perm _
    rw [List.map_append, List.map_append]
    cases s.reply c a event with
    | none =>
        have moved : (s.trail.accepted ++ [c.event event] ++ (s.warnings.map Prod.fst ++ [])).Perm
            (s.trail.accepted ++ s.warnings.map Prod.fst ++ [c.event event]) := by
          rw [List.append_nil, List.append_assoc, List.append_assoc]
          exact List.Perm.append_left _ List.perm_append_comm
        exact moved.trans (all.append_right _)
    | some err =>
        have same : s.trail.accepted ++ [] ++ (s.warnings.map Prod.fst ++ [c.event event]) =
            s.trail.accepted ++ s.warnings.map Prod.fst ++ [c.event event] := by
          rw [List.append_nil, List.append_assoc]
        exact (List.Perm.of_eq same).trans (all.append_right _)

private theorem Accounted.logAll {events : List AuditEvent} (books : Accounted c start s events)
    (a : Answers) (new : List AuditEvent) :
    Accounted c start (new.foldl (Firewall.log c a) s) (events ++ new) := by
  induction new generalizing s events with
  | nil => rwa [List.append_nil]
  | cons event rest ih =>
      rw [List.foldl_cons, List.append_cons]
      exact ih (books.log a event)

private theorem foldl_log_engine (a : Answers) (new : List AuditEvent) (s : Firewall) :
    (new.foldl (Firewall.log c a) s).engine = s.engine := by
  induction new generalizing s with
  | nil => rfl
  | cons event rest ih => rw [List.foldl_cons, ih, Firewall.log]

private theorem Accounted.run {calls : List Call} {outbox : List Call}
    (books : Accounted c start s (logs calls)) (made : s.engine.outbox = outbox ++ calls)
    (scenes : List Scene) :
    ∃ calls, (s.run c d scenes).engine.outbox = outbox ++ calls ∧
      Accounted c start (s.run c d scenes) (logs calls) := by
  induction scenes generalizing s calls with
  | nil => exact ⟨calls, made, books⟩
  | cons scene rest ih =>
      change ∃ calls, ((s.step c d scene).run c d rest).engine.outbox = _ ∧ _
      have handling := packetHandler_eq d (s.surroundings c scene) scene.payload s.engine
      have grown := handled_outbox d (s.surroundings c scene) scene.payload s.engine
      have step : s.step c d scene =
          (logs (Course.made d (s.surroundings c scene) scene.payload s.engine)).foldl
            (Firewall.log c scene.answers)
            { s with engine := (handled d (s.surroundings c scene) scene.payload s.engine).2 } := by
        unfold Firewall.step
        rw [handling]
        rfl
      have booked : Accounted c start (s.step c d scene)
          (logs (calls ++ Course.made d (s.surroundings c scene) scene.payload s.engine)) := by
        rw [step, logs_append]
        have same : Accounted c start
            { s with engine := (handled d (s.surroundings c scene) scene.payload s.engine).2 }
            (logs calls) := ⟨books.sound, books.sublist, books.all⟩
        exact same.logAll _ _
      apply ih booked
      rw [step, foldl_log_engine]
      dsimp only
      rw [grown, made, List.append_assoc]

end Accounts

/-- Whatever packets the firewall handles and whatever the file system answers, the events that
the engine hands to the logger are in its files or were refused with an error, each of them once.
In order, file by file, the files hold those that were taken. A reader of any of these files, also
of one that was cut off anywhere, gets the events of it back with every field, as many as are
whole; and their timestamps tell the times. -/
theorem audit_log_reads_back (d : Decoder) (c : LocalClock) (e : Engine) (t : Trail)
    (started : Started t) (scenes : List Scene) :
    let after := (⟨e, t, []⟩ : Firewall).run c d scenes
    let taken := after.trail.accepted
    (∃ calls, after.engine.outbox = e.outbox ++ calls ∧
      taken.Sublist ((logs calls).map c.event) ∧
      (taken ++ after.warnings.map Prod.fst).Perm ((logs calls).map c.event)) ∧
    (List.range after.trail.disk.next).flatMap (added t.disk after.trail.disk) = taken ∧
    (∀ ino < after.trail.disk.next, ∀ n, ∃ k,
      (readLines [] ((after.trail.files ino).take n)).1.map readEntry =
        (((after.trail.disk.data ino).filterMap entryFor).take k).map some ∧
      ((after.trail.files ino).length ≤ n →
        ((after.trail.disk.data ino).filterMap entryFor).length ≤ k)) ∧
    ((∀ t, 0 ≤ wallClock (c.zone t) t) → ∀ a ∈ taken, ∀ b ∈ taken, ∀ entry entry',
      entryFor a = some entry → entryFor b = some entry' →
        entry.timestamp = entry'.timestamp → a.timestamp.nanos = b.timestamp.nanos) := by
  dsimp only
  have books : Accounted c t.disk ⟨e, t, []⟩ (logs []) := by
    refine ⟨started.sound, ?_, ?_⟩
    · rw [started.accepted]
      exact List.nil_sublist _
    · rw [started.accepted]
      exact List.Perm.refl _
  obtain ⟨calls, outbox, sound, sublist, all⟩ :=
    books.run (d := d) (List.append_nil e.outbox).symm scenes
  refine ⟨⟨calls, outbox, sublist, all⟩, sound.accepted, fun ino old n => sound.reads old n, ?_⟩
  intro era a taken b taken' entry entry' shown shown'
  have clock {x : Audit.Rotation.AuditEvent}
      (member : x ∈ ((⟨e, t, []⟩ : Firewall).run c d scenes).trail.accepted) :
      0 ≤ wallClock x.timestamp.zone x.timestamp.nanos := by
    obtain ⟨event, -, rfl⟩ := List.mem_map.mp (sublist.subset member)
    exact era event.timestamp
  exact entryFor_time (clock taken) (clock taken') shown shown'

def emptyTrail : Trail :=
  let start := Audit.Rotation.launched ⟨none, none, ⟨none, none, true⟩, .ok 0⟩ ⟨[], 0, 0⟩
  ⟨start.1, start.2, fun _ => [], []⟩

private theorem emptyTrail_started : Started emptyTrail where
  opened := ⟨⟨none, none, ⟨none, none, true⟩, .ok 0⟩, ⟨[], 0, 0⟩, Audit.Rotation.emptyDisk, rfl⟩
  whole := fun ino => by
    have empty : emptyTrail.disk.data ino = [] := by
      change Function.update (fun _ => []) 0 [] ino = ([] : List Audit.Rotation.AuditEvent)
      rw [Function.update_eq_self_iff.mpr rfl]
    rw [empty]
    split <;> rfl
  accepted := rfl

/-- Two denied packets; the write of the second event fails after ten bytes. -/
def tornScenes : List Scene :=
  [⟨refusing, some Counters.wholeSyn, ⟨Audit.Rotation.calm 0, 0⟩⟩,
    ⟨refusing, some Counters.wholeSyn,
      ⟨{ Audit.Rotation.calm 0 with write := some "no space left on device" }, 10⟩⟩]

theorem tornScenes_read :
    let after := (⟨loggingEngine, emptyTrail, []⟩ : Firewall).run ⟨fun _ => 0, fun _ => ""⟩
      Packet.Parser.fixedFields tornScenes
    after.trail.accepted.length = 1 ∧ after.warnings.length = 1 ∧
      (readLines [] (after.trail.files 0)).1.map readEntry =
        ((after.trail.disk.data 0).filterMap entryFor).map some := by
  obtain ⟨-, -, reads, -⟩ := audit_log_reads_back Packet.Parser.fixedFields
    ⟨fun _ => 0, fun _ => ""⟩ loggingEngine emptyTrail emptyTrail_started tornScenes
  obtain ⟨k, read, all⟩ := reads 0 (by decide +kernel) _
  rw [List.take_of_length_le (Nat.le_refl _), List.take_of_length_le (all (Nat.le_refl _))] at read
  exact ⟨by decide +kernel, by decide +kernel, read⟩

end L3Firewall.Pipeline.AuditLog
