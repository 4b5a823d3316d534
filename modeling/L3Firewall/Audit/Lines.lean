/- Audit/Lines
   source: internal/audit/audit.go, with encoding/json as it documents itself
   digest: The files of the audit logger as bytes: a line for each event that the logger took,
   through rotations and failing calls, and a reader gets the events back. -/

import L3Firewall.Audit.Rotation
import L3Firewall.Foundation.JsonRecord
import L3Firewall.Foundation.Rfc3339

set_option autoImplicit false
set_option relaxedAutoImplicit false

namespace L3Firewall.Audit.Lines

open Filepath.Lexical (Base)
open Foundation.FiniteMap
open Foundation.JsonRecord
open Foundation.Rfc3339
open Foundation.Utf8
open Rotation

/-- The fields of an event with their JSON names, in the order of the declaration. -/
def fieldsOf (stamp : Bytes) (e : AuditEvent) : List Field :=
  [⟨bytes "timestamp", .text stamp, false⟩,
    ⟨bytes "type", .text (bytes e.type), false⟩,
    ⟨bytes "trace_id", .text (bytes e.traceID), true⟩,
    ⟨bytes "src_ip", .text (bytes e.srcIP), true⟩,
    ⟨bytes "dst_ip", .text (bytes e.dstIP), true⟩,
    ⟨bytes "protocol", .text (bytes e.protocol), true⟩,
    ⟨bytes "src_port", .count e.srcPort.toNat, true⟩,
    ⟨bytes "dst_port", .count e.dstPort.toNat, true⟩,
    ⟨bytes "packet_size", .count e.packetSize, true⟩,
    ⟨bytes "reason", .text e.reason, true⟩]

/-- What the encoder writes of an event. A time that has no text is an error, and nothing is
written. -/
def encodeEvent (e : AuditEvent) : Option Bytes :=
  (rfc3339Nano e.timestamp.zone e.timestamp.nanos).map fun stamp =>
    writeRecord (fieldsOf (encode stamp) e)

def marshalError (t : Instant) : String :=
  "json: error calling MarshalJSON for type time.Time: Time.MarshalJSON: " ++
    if 10000 ≤ Foundation.Calendar.yearOf (wallClock t.zone t.nanos).toNat then
      "year outside of range [0,9999]"
    else "timezone hour outside of range [0,23]"

structure Entry where
  timestamp : Bytes
  type : Bytes
  traceID : Bytes
  srcIP : Bytes
  dstIP : Bytes
  protocol : Bytes
  srcPort : Int
  dstPort : Int
  packetSize : Int
  reason : Bytes
  deriving DecidableEq

def readEntry (line : Bytes) : Option Entry := do
  let members ← readRecord line
  return {
    timestamp := ← textOf (bytes "timestamp") members
    type := ← textOf (bytes "type") members
    traceID := ← textOf (bytes "trace_id") members
    srcIP := ← textOf (bytes "src_ip") members
    dstIP := ← textOf (bytes "dst_ip") members
    protocol := ← textOf (bytes "protocol") members
    srcPort := ← countOf (bytes "src_port") members
    dstPort := ← countOf (bytes "dst_port") members
    packetSize := ← countOf (bytes "packet_size") members
    reason := ← textOf (bytes "reason") members }

/-- The entry of an event: all its fields, with the reason as far as it is UTF-8. -/
def entryFor (e : AuditEvent) : Option Entry :=
  (rfc3339Nano e.timestamp.zone e.timestamp.nanos).map fun stamp =>
    { timestamp := encode stamp
      type := bytes e.type
      traceID := bytes e.traceID
      srcIP := bytes e.srcIP
      dstIP := bytes e.dstIP
      protocol := bytes e.protocol
      srcPort := e.srcPort.toNat
      dstPort := e.dstPort.toNat
      packetSize := e.packetSize
      reason := sanitize e.reason }

section Format

variable {e : AuditEvent} {line : Bytes}

private theorem sanitize_bytes (s : String) : sanitize (bytes s) = bytes s :=
  sanitize_encode s.toList

private theorem fieldsOf_nodup (stamp : Bytes) (e : AuditEvent) :
    ((fieldsOf stamp e).map Field.name).Nodup := by
  show [bytes "timestamp", bytes "type", bytes "trace_id", bytes "src_ip", bytes "dst_ip",
    bytes "protocol", bytes "src_port", bytes "dst_port", bytes "packet_size",
    bytes "reason"].Nodup
  decide +kernel

private theorem fieldsOf_names (stamp : Bytes) (e : AuditEvent) :
    ∀ f ∈ fieldsOf stamp e, sanitize f.name = f.name := by
  intro f member
  simp only [fieldsOf, List.mem_cons, List.not_mem_nil, or_false] at member
  rcases member with rfl | rfl | rfl | rfl | rfl | rfl | rfl | rfl | rfl | rfl <;>
    exact sanitize_bytes _

private theorem readEntry_encodeEvent (written : encodeEvent e = some line) :
    readEntry line = entryFor e := by
  unfold encodeEvent at written
  unfold entryFor
  obtain ⟨stamp, known, rfl⟩ := Option.map_eq_some_iff.mp written
  rw [known, Option.map_some, readEntry, readRecord_writeRecord]
  have nodup := fieldsOf_nodup (encode stamp) e
  have names := fieldsOf_names (encode stamp) e
  have reads (name s : Bytes) (omitEmpty : Bool)
      (member : ⟨name, .text s, omitEmpty⟩ ∈ fieldsOf (encode stamp) e) :=
    textOf_record nodup names member
  have counts (name : Bytes) (n : Int) (omitEmpty : Bool)
      (member : ⟨name, .count n, omitEmpty⟩ ∈ fieldsOf (encode stamp) e) :=
    countOf_record nodup names member
  rw [Option.bind_eq_bind, Option.bind_some]
  rw [reads (bytes "timestamp") (encode stamp) false (by simp [fieldsOf]),
    reads (bytes "type") (bytes e.type) false (by simp [fieldsOf]),
    reads (bytes "trace_id") (bytes e.traceID) true (by simp [fieldsOf]),
    reads (bytes "src_ip") (bytes e.srcIP) true (by simp [fieldsOf]),
    reads (bytes "dst_ip") (bytes e.dstIP) true (by simp [fieldsOf]),
    reads (bytes "protocol") (bytes e.protocol) true (by simp [fieldsOf]),
    counts (bytes "src_port") e.srcPort.toNat true (by simp [fieldsOf]),
    counts (bytes "dst_port") e.dstPort.toNat true (by simp [fieldsOf]),
    counts (bytes "packet_size") e.packetSize true (by simp [fieldsOf]),
    reads (bytes "reason") e.reason true (by simp [fieldsOf])]
  simp only [sanitize_bytes, sanitize_encode]
  rfl

private theorem readEntry_lines (events : List AuditEvent) :
    (events.filterMap encodeEvent).map readEntry = (events.filterMap entryFor).map some := by
  induction events with
  | nil => rfl
  | cons e rest ih =>
      cases stamp : rfc3339Nano e.timestamp.zone e.timestamp.nanos with
      | none =>
          have unwritten : encodeEvent e = none := by rw [encodeEvent, stamp, Option.map_none]
          have unread : entryFor e = none := by rw [entryFor, stamp, Option.map_none]
          rw [List.filterMap_cons_none unwritten, List.filterMap_cons_none unread, ih]
      | some text =>
          obtain ⟨line, written⟩ : ∃ line, encodeEvent e = some line :=
            ⟨_, by rw [encodeEvent, stamp, Option.map_some]⟩
          obtain ⟨entry, shown⟩ : ∃ entry, entryFor e = some entry :=
            ⟨_, by rw [entryFor, stamp, Option.map_some]⟩
          rw [List.filterMap_cons_some written, List.filterMap_cons_some shown, List.map_cons,
            List.map_cons, ih, readEntry_encodeEvent written, shown]

private theorem newline_notMem_line (written : encodeEvent e = some line) : newline ∉ line := by
  obtain ⟨stamp, -, rfl⟩ := Option.map_eq_some_iff.mp written
  exact newline_notMem_writeRecord _

theorem entryFor_time {e e' : AuditEvent} {entry entry' : Entry}
    (era : 0 ≤ wallClock e.timestamp.zone e.timestamp.nanos)
    (era' : 0 ≤ wallClock e'.timestamp.zone e'.timestamp.nanos)
    (shown : entryFor e = some entry) (shown' : entryFor e' = some entry')
    (same : entry.timestamp = entry'.timestamp) : e.timestamp.nanos = e'.timestamp.nanos := by
  obtain ⟨stamp, written, rfl⟩ := Option.map_eq_some_iff.mp shown
  obtain ⟨stamp', written', rfl⟩ := Option.map_eq_some_iff.mp shown'
  have texts : stamp = stamp' := encode_injective same
  subst texts
  exact (rfc3339Nano_inj era era' written written').2

end Format

/-! The logger with its files. -/

/-- The answers to one call of `Log`, and how much of the line a failed write leaves behind. -/
structure Answers where
  sys : System
  kept : Nat

/-- Encoding fails if and only if the time has no text. -/
def Answers.system (a : Answers) (e : AuditEvent) : System :=
  { a.sys with
    marshal := if (encodeEvent e).isSome then none else some (marshalError e.timestamp) }

/-- The logger, its directory, the bytes of the files, and the events that `Log` took without an
error. -/
structure Trail where
  logger : Logger
  disk : Disk
  files : Nat → Bytes
  accepted : List AuditEvent

/-- The logger and the directory when `Log` comes to the event, unless it gives up before. -/
def writer (sys : System) (l : Logger) (d : Disk) : Option (Logger × Disk) :=
  if l.closed then none
  else if l.due then
    match rotateLocked sys l d with
    | (some _, _, _) => none
    | (none, l, d) => some (l, d)
  else some (l, d)

/-- What reaches the file of a line and its newline. -/
def Answers.reaches (a : Answers) (l : Logger) (line : Bytes) : Bytes :=
  if l.encoderErr.isNone && l.file.isOpen then
    match a.sys.write with
    | none => line ++ [newline]
    | some _ => line.take a.kept
  else []

def Trail.log (t : Trail) (a : Answers) (e : AuditEvent) : Trail :=
  let out := Log (a.system e) t.logger t.disk e
  { logger := out.2.1
    disk := out.2.2
    files :=
      match writer (a.system e) t.logger t.disk, encodeEvent e with
      | some (l, _), some line =>
          Function.update t.files l.file.ino (t.files l.file.ino ++ a.reaches l line)
      | _, _ => t.files
    accepted := t.accepted ++ if out.1.isNone then [e] else [] }

def initially (d : Disk) (ino : Nat) : List AuditEvent := if ino < d.next then d.data ino else []

def added (start d : Disk) (ino : Nat) : List AuditEvent :=
  (d.data ino).drop (initially start ino).length

section Frames

variable {sys : System} {l : Logger} {d d' : Disk} {e : AuditEvent}

/-- The files are as they were, or there is one more, an empty one. -/
inductive Turned (d d' : Disk) : Prop
  | same (data : d'.data = d.data) (next : d'.next = d.next)
  | opened (data : d'.data = Function.update d.data d.next []) (next : d'.next = d.next + 1)

private theorem rename_frame {old new : Name} (renamed : d.rename old new = some d') :
    d'.data = d.data ∧ d'.next = d.next ∧ (old ≠ new → d'.entries.lookup old = none) := by
  unfold Disk.rename at renamed
  split at renamed
  · cases renamed
  · obtain rfl := Option.some.inj renamed
    refine ⟨rfl, rfl, fun other => ?_⟩
    rw [lookup_insert_eq, if_neg other, lookup_erase_eq, if_pos rfl]

private theorem openCreate_next {name : Name} (missing : d.entries.lookup name = none) :
    (d.openCreate name).2.next = d.next + 1 := by
  unfold Disk.openCreate
  split
  · next found => exact absurd found (by simp [missing])
  · rfl

private theorem remove_next (d : Disk) (target : Name) : (sys.remove d target).next = d.next := by
  unfold System.remove
  split <;> rfl

private theorem removals_next (targets : List Name) (d : Disk) :
    (targets.foldl sys.remove d).next = d.next := by
  induction targets generalizing d with
  | nil => rfl
  | cons target rest ih => rw [List.foldl_cons, ih, remove_next]

private theorem cleanupLocked_next (sys : System) (l : Logger) (d : Disk) :
    (cleanupLocked sys l d).next = d.next := by
  unfold cleanupLocked
  cases sys.readdirnames d with
  | none => rfl
  | some names =>
      dsimp only
      split
      · rfl
      · exact removals_next _ _

private theorem openAuditFile_turned (ans : Opening) {path : Filepath.Lexical.Pathname}
    (missing : d.entries.lookup (Base path) = none) :
    Turned d (openAuditFile ans path d).2 ∧
      ∀ file, (openAuditFile ans path d).1 = .ok file → file = ⟨d.next, true⟩ ∧
        (openAuditFile ans path d).2.data = Function.update d.data d.next [] ∧
        (openAuditFile ans path d).2.next = d.next + 1 := by
  obtain ⟨ino, -, data⟩ := openCreate_new missing
  have next := openCreate_next missing
  unfold openAuditFile
  split
  · exact ⟨.same rfl rfl, fun file opened => by cases opened⟩
  · dsimp only
    split
    · exact ⟨.opened data next, fun file opened => by cases opened⟩
    · split
      · refine ⟨.opened data next, fun file opened => ⟨?_, data, next⟩⟩
        rw [← Except.ok.inj opened, ino]
      · exact ⟨.opened data next, fun file opened => by cases opened⟩

private theorem rotateLocked_turned (sys : System) (l : Logger) (d : Disk) :
    (∃ cause l' d', rotateLocked sys l d = (some cause, l', d') ∧ l'.file.ino = l.file.ino ∧
      l'.encoderErr = l.encoderErr ∧ Turned d d') ∨
    ∃ l' d', rotateLocked sys l d = (none, l', d') ∧ l'.file = ⟨d.next, true⟩ ∧
      l'.encoderErr = none ∧ d'.data = Function.update d.data d.next [] ∧
      d'.next = d.next + 1 := by
  have closed (answer : Option String) :
      (l.file.close l.path answer).2.ino = l.file.ino := by
    unfold Handle.close
    split <;> rfl
  unfold rotateLocked
  split
  · exact .inl ⟨_, _, _, rfl, rfl, rfl, .same rfl rfl⟩
  · rcases out : l.file.close l.path sys.close with ⟨_ | err, file⟩
    · have ino : file.ino = l.file.ino := by
        rw [← closed sys.close, out]
      dsimp only
      split
      · exact .inl ⟨_, _, _, rfl, ino, rfl, .same rfl rfl⟩
      · cases renamed : d.rename (Base l.path) (backupName (Base l.path) (second sys.now)) with
        | none => exact .inl ⟨_, _, _, rfl, ino, rfl, .same rfl rfl⟩
        | some d₁ =>
            obtain ⟨data, next, missing⟩ := rename_frame renamed
            obtain ⟨turned, granted⟩ := openAuditFile_turned sys.reopen
              (missing (base_ne_backupName (Base l.path) _))
            dsimp only
            rcases opened : openAuditFile sys.reopen l.path d₁ with ⟨err | file', d₂⟩
            · rw [opened] at turned
              refine .inl ⟨_, _, _, rfl, ino, rfl, ?_⟩
              cases turned with
              | same sameData sameNext => exact .same (sameData.trans data) (sameNext.trans next)
              | opened newData newNext =>
                  exact .opened (by rw [newData, data, next]) (by rw [newNext, next])
            · rw [opened] at granted
              obtain ⟨rfl, newData, newNext⟩ := granted file' rfl
              refine .inr ⟨_, _, rfl, by rw [next], rfl, ?_, ?_⟩
              · rw [cleanupLocked_data, newData, data, next]
              · rw [cleanupLocked_next, newNext, next]
    · have ino : file.ino = l.file.ino := by
        rw [← closed sys.close, out]
      exact .inl ⟨_, _, _, rfl, ino, rfl, .same rfl rfl⟩

private theorem log_cases (sys : System) (l : Logger) (d : Disk) (e : AuditEvent) :
    (writer sys l d = none ∧ ∃ cause l' d', Log sys l d e = (some cause, l', d') ∧
      l'.file.ino = l.file.ino ∧ l'.encoderErr = l.encoderErr ∧ Turned d d') ∨
    (writer sys l d = some (l, d) ∧ Log sys l d e = writeEvent sys l d e) ∨
    ∃ l' d', writer sys l d = some (l', d') ∧ Log sys l d e = writeEvent sys l' d' e ∧
      l'.file = ⟨d.next, true⟩ ∧ l'.encoderErr = none ∧
      d'.data = Function.update d.data d.next [] ∧ d'.next = d.next + 1 := by
  unfold writer Log
  by_cases closed : l.closed = true
  · rw [if_pos closed, if_pos closed]
    exact .inl ⟨rfl, _, _, _, rfl, rfl, rfl, .same rfl rfl⟩
  · rw [if_neg closed, if_neg closed]
    by_cases due : l.due = true
    · rw [if_pos due, if_pos due]
      rcases rotateLocked_turned sys l d with
        ⟨cause, l', d', out, ino, err, turned⟩ | ⟨l', d', out, file, err, data, next⟩
      · rw [out]
        exact .inl ⟨rfl, _, _, _, rfl, ino, err, turned⟩
      · rw [out]
        exact .inr (.inr ⟨l', d', rfl, rfl, file, err, data, next⟩)
    · rw [if_neg due, if_neg due]
      exact .inr (.inl ⟨rfl, rfl⟩)

private theorem reaches_front {a : Answers}
    (failed : l.encoderErr ≠ none ∨ l.file.isOpen = false ∨ a.sys.write ≠ none) (line : Bytes) :
    a.reaches l line <+: line := by
  unfold Answers.reaches
  split
  · next ready =>
      obtain ⟨working, isOpen⟩ := Bool.and_eq_true_iff.mp ready
      cases write : a.sys.write with
      | some err => exact List.take_prefix _ _
      | none =>
          rcases failed with broken | closed | refused
          · exact absurd (Option.isNone_iff_eq_none.mp working) broken
          · exact absurd (closed.symm.trans isOpen) (by decide)
          · exact absurd write refused
  · exact List.nil_prefix

/-- A write appends the event without an error, or leaves the files of the directory alone; then
the event has no text, or the encoder has an error from now on. -/
private theorem writeEvent_cases (a : Answers) (l : Logger) (d : Disk) (e : AuditEvent) :
    (∃ line l', encodeEvent e = some line ∧ a.reaches l line = line ++ [newline] ∧
      writeEvent (a.system e) l d e = (none, l', d.append l.file.ino e) ∧ l'.file = l.file ∧
      l.encoderErr = none) ∨
    ∃ cause l', writeEvent (a.system e) l d e = (some cause, l', d) ∧ l'.file = l.file ∧
      (encodeEvent e = none ∧ l'.encoderErr = l.encoderErr ∨
        l'.encoderErr ≠ none ∧ ∀ line, a.reaches l line <+: line) := by
  unfold writeEvent
  cases broken : l.encoderErr with
  | some err =>
      have lost := @reaches_front l a (.inl (by rw [broken]; exact Option.some_ne_none err))
      exact .inr ⟨_, _, rfl, rfl, .inr ⟨by simp [broken], lost⟩⟩
  | none =>
      cases written : encodeEvent e with
      | none =>
          have marshal : (a.system e).marshal = some (marshalError e.timestamp) := by
            unfold Answers.system
            rw [written]
            rfl
          rw [marshal]
          exact .inr ⟨_, _, rfl, rfl, .inl ⟨rfl, broken⟩⟩
      | some line =>
          have marshal : (a.system e).marshal = none := by
            unfold Answers.system
            rw [written]
            rfl
          have write : (a.system e).write = a.sys.write := rfl
          rw [marshal, write]
          dsimp only
          by_cases isOpen : l.file.isOpen = true
          · rw [if_pos isOpen]
            cases wrote : a.sys.write with
            | none =>
                refine .inl ⟨line, _, rfl, ?_, rfl, rfl, rfl⟩
                rw [Answers.reaches, broken, isOpen, wrote]
                rfl
            | some err =>
                have lost := @reaches_front l a
                  (.inr (.inr (by rw [wrote]; exact Option.some_ne_none err)))
                exact .inr ⟨_, _, rfl, rfl, .inr ⟨by simp, lost⟩⟩
          · rw [if_neg isOpen]
            have lost := @reaches_front l a (.inr (.inl (Bool.eq_false_iff.mpr isOpen)))
            exact .inr ⟨_, _, rfl, rfl, .inr ⟨by simp, lost⟩⟩

end Frames

/-- What holds between two calls of a trail that began with whole lines. A torn line is the last
of its file, and the logger writes no more to that file. -/
structure Sound (start : Disk) (t : Trail) : Prop where
  below : t.logger.file.ino < t.disk.next
  began : start.next ≤ t.disk.next
  unused : ∀ ino, t.disk.next ≤ ino → t.files ino = []
  lines : ∀ ino < t.disk.next, ∃ torn, newline ∉ torn ∧
    t.files ino = writeLines ((t.disk.data ino).filterMap encodeEvent) ++ torn ∧
    (ino = t.logger.file.ino → t.logger.encoderErr = none → torn = [])
  grown : ∀ ino < t.disk.next, initially start ino <+: t.disk.data ino
  later : ∀ ino, t.logger.file.ino < ino → ino < t.disk.next →
    t.disk.data ino = initially start ino
  accepted : (List.range t.disk.next).flatMap (added start t.disk) = t.accepted

section Steps

variable {start d d' : Disk} {l l' : Logger} {files : Nat → Bytes} {accepted : List AuditEvent}

private theorem initially_unused {ino : Nat} (old : start.next ≤ ino) : initially start ino = [] :=
  if_neg (Nat.not_lt_of_le old)

private theorem flatMap_range_congr {α : Type} {f g : Nat → List α} (n : Nat)
    (same : ∀ j < n, g j = f j) : (List.range n).flatMap g = (List.range n).flatMap f := by
  induction n with
  | zero => rfl
  | succ n ih =>
      rw [List.range_succ, List.flatMap_append, List.flatMap_append,
        ih fun j small => same j (Nat.lt_succ_of_lt small), List.flatMap_singleton,
        List.flatMap_singleton, same n (Nat.lt_succ_self n)]

private theorem flatMap_range_snoc {α : Type} {f g : Nat → List α} {i n : Nat} {x : α}
    (inside : i < n) (here : g i = f i ++ [x]) (others : ∀ j, j ≠ i → g j = f j)
    (after : ∀ j, i < j → j < n → f j = []) :
    (List.range n).flatMap g = (List.range n).flatMap f ++ [x] := by
  induction n with
  | zero => exact absurd inside (Nat.not_lt_zero i)
  | succ n ih =>
      rw [List.range_succ, List.flatMap_append, List.flatMap_append, List.flatMap_singleton,
        List.flatMap_singleton]
      by_cases last : i = n
      · subst last
        rw [here, flatMap_range_congr i fun j small => others j (Nat.ne_of_lt small),
          List.append_assoc]
      · have before : i < n := by omega
        rw [ih before fun j later small => after j later (Nat.lt_succ_of_lt small),
          others n (Ne.symm last), after n before (Nat.lt_succ_self n), List.append_nil,
          List.append_nil]

private theorem Sound.opened (sound : Sound start ⟨l, d, files, accepted⟩)
    (data : d'.data = Function.update d.data d.next []) (next : d'.next = d.next + 1)
    (file : l'.file.ino = l.file.ino ∧ l'.encoderErr = l.encoderErr ∨ l'.file.ino = d.next) :
    Sound start ⟨l', d', files, accepted⟩ := by
  have fresh : initially start d.next = [] := initially_unused sound.began
  have here : d'.data d.next = [] := by rw [data, Function.update_self]
  have others {ino : Nat} (other : ino ≠ d.next) : d'.data ino = d.data ino := by
    rw [data, Function.update_of_ne other]
  have below := sound.below
  dsimp only at below
  refine ⟨?_, ?_, fun ino unused => ?_, fun ino old => ?_, fun ino old => ?_,
    fun ino above old => ?_, ?_⟩
  · dsimp only
    omega
  · have began := sound.began
    dsimp only at began ⊢
    omega
  · exact sound.unused ino (by dsimp only at unused ⊢; omega)
  · by_cases new : ino = d.next
    · subst new
      refine ⟨[], List.not_mem_nil, ?_, fun _ _ => rfl⟩
      have empty : files d.next = [] := sound.unused d.next (Nat.le_refl _)
      dsimp only
      rw [here, empty]
      rfl
    · obtain ⟨torn, unfinished, whole, none⟩ := sound.lines ino (by dsimp only at old ⊢; omega)
      dsimp only at whole none ⊢
      refine ⟨torn, unfinished, by rw [others new, whole], fun current ready => ?_⟩
      rcases file with ⟨same, error⟩ | turned
      · exact none (current.trans same) (error.symm.trans ready)
      · exact absurd (current.trans turned) new
  · by_cases new : ino = d.next
    · subst new
      rw [fresh]
      exact List.nil_prefix
    · dsimp only
      rw [others new]
      exact sound.grown ino (by dsimp only at old ⊢; omega)
  · by_cases new : ino = d.next
    · subst new
      exact here.trans fresh.symm
    · dsimp only at above old ⊢
      rw [others new]
      refine sound.later ino ?_ (by dsimp only; omega)
      dsimp only
      omega
  · dsimp only
    rw [next, List.range_succ, List.flatMap_append, List.flatMap_singleton]
    have empty : added start d' d.next = [] := by rw [added, here, List.drop_nil]
    rw [empty, List.append_nil]
    refine (flatMap_range_congr d.next fun ino old => ?_).trans sound.accepted
    rw [added, added, others (Nat.ne_of_lt old)]

private theorem Sound.turned (sound : Sound start ⟨l, d, files, accepted⟩) (turned : Turned d d')
    (file : l'.file.ino = l.file.ino) (error : l'.encoderErr = l.encoderErr) :
    Sound start ⟨l', d', files, accepted⟩ := by
  cases turned with
  | opened data next => exact sound.opened data next (.inl ⟨file, error⟩)
  | same data next =>
      obtain ⟨below, began, unused, lines, grown, later, kept⟩ := sound
      dsimp only at below began unused lines grown later kept
      refine ⟨?_, ?_, ?_, ?_, ?_, ?_, ?_⟩ <;> dsimp only
      · rwa [file, next]
      · rwa [next]
      · rwa [next]
      · rwa [next, data, file, error]
      · rwa [next, data]
      · rwa [next, data, file]
      · have same : added start d' = added start d := by
          funext ino
          rw [added, added, data]
        rwa [next, same]

private theorem Sound.unused_update (sound : Sound start ⟨l, d, files, accepted⟩) (bytes : Bytes)
    {ino : Nat} (unused : d.next ≤ ino) : Function.update files l.file.ino bytes ino = [] := by
  have other : ino ≠ l.file.ino := by
    rintro rfl
    exact absurd sound.below (Nat.not_lt_of_le unused)
  rw [Function.update_of_ne other]
  exact sound.unused ino unused

private theorem Sound.append (sound : Sound start ⟨l, d, files, accepted⟩) {e : AuditEvent}
    {line : Bytes} (written : encodeEvent e = some line) (ready : l.encoderErr = none)
    (file : l'.file = l.file) :
    Sound start ⟨l', d.append l.file.ino e,
      Function.update files l.file.ino (files l.file.ino ++ (line ++ [newline])),
      accepted ++ [e]⟩ := by
  have here : (d.append l.file.ino e).data l.file.ino = d.data l.file.ino ++ [e] :=
    Function.update_self ..
  have others {ino : Nat} (other : ino ≠ l.file.ino) :
      (d.append l.file.ino e).data ino = d.data ino := Function.update_of_ne other ..
  have below := sound.below
  have prefixed := sound.grown l.file.ino below
  refine ⟨?_, sound.began, fun ino => sound.unused_update _, fun ino old => ?_,
    fun ino old => ?_, fun ino above old => ?_, ?_⟩
  · dsimp only
    rw [file]
    exact below
  · by_cases current : ino = l.file.ino
    · subst current
      obtain ⟨torn, -, whole, none⟩ := sound.lines l.file.ino below
      obtain rfl := none rfl ready
      refine ⟨[], List.not_mem_nil, ?_, fun _ _ => rfl⟩
      dsimp only at whole ⊢
      rw [Function.update_self, here, whole, List.filterMap_append, List.append_nil,
        List.append_nil, List.filterMap_cons_some written, List.filterMap_nil, writeLines,
        writeLines, List.flatMap_append, List.flatMap_singleton]
    · obtain ⟨torn, unfinished, whole, -⟩ := sound.lines ino old
      dsimp only at whole ⊢
      refine ⟨torn, unfinished, ?_, fun same => absurd (same.trans (by rw [file])) current⟩
      rw [Function.update_of_ne current, others current, whole]
  · by_cases current : ino = l.file.ino
    · subst current
      dsimp only
      rw [here]
      exact prefixed.trans (List.prefix_append _ _)
    · dsimp only
      rw [others current]
      exact sound.grown ino old
  · dsimp only at above
    rw [file] at above
    dsimp only
    rw [others (Nat.ne_of_gt above)]
    exact sound.later ino above old
  · have total := sound.accepted
    dsimp only at total ⊢
    rw [← total]
    refine flatMap_range_snoc below ?_ (fun ino other => ?_) (fun ino above old => ?_)
    · rw [added, added, here, List.drop_append_of_le_length prefixed.length_le]
    · rw [added, added, others other]
    · have same := sound.later ino above old
      dsimp only at same
      rw [added, same, List.drop_length]

private theorem Sound.torn (sound : Sound start ⟨l, d, files, accepted⟩) {part line : Bytes}
    (front : part <+: line) (plain : newline ∉ line) (file : l'.file = l.file)
    (broken : l'.encoderErr ≠ none) :
    Sound start ⟨l', d, Function.update files l.file.ino (files l.file.ino ++ part),
      accepted⟩ := by
  have below := sound.below
  refine ⟨?_, sound.began, fun ino => sound.unused_update _, fun ino old => ?_, sound.grown,
    fun ino above => ?_, sound.accepted⟩
  · dsimp only
    rw [file]
    exact below
  · obtain ⟨torn, unfinished, whole, -⟩ := sound.lines ino old
    dsimp only at whole ⊢
    by_cases current : ino = l.file.ino
    · subst current
      refine ⟨torn ++ part, ?_, ?_, fun _ ready => absurd ready broken⟩
      · intro found
        rcases List.mem_append.mp found with found | found
        · exact unfinished found
        · exact plain (front.subset found)
      · rw [Function.update_self, whole, List.append_assoc]
    · exact ⟨torn, unfinished, by rw [Function.update_of_ne current, whole],
        fun _ ready => absurd ready broken⟩
  · dsimp only at above
    rw [file] at above
    exact sound.later ino above

private theorem Sound.write (sound : Sound start ⟨l, d, files, accepted⟩) (a : Answers)
    (e : AuditEvent) :
    let out := writeEvent (a.system e) l d e
    Sound start ⟨out.2.1, out.2.2,
      match encodeEvent e with
      | some line => Function.update files l.file.ino (files l.file.ino ++ a.reaches l line)
      | none => files, accepted ++ if out.1.isNone then [e] else []⟩ := by
  rcases writeEvent_cases a l d e with
    ⟨line, l', written, reaches, out, file, ready⟩ | ⟨cause, l', out, file, failed⟩
  · dsimp only
    rw [out, written]
    dsimp only
    rw [reaches]
    exact sound.append written ready file
  · dsimp only
    rw [out]
    simp only [Option.isNone_some, Bool.false_eq_true, if_false, List.append_nil]
    rcases failed with ⟨textless, error⟩ | ⟨broken, part⟩
    · rw [textless]
      exact sound.turned (.same rfl rfl) (by rw [file]) error
    · cases written : encodeEvent e with
      | none =>
          have none := sound.torn (List.nil_prefix : [] <+: []) List.not_mem_nil file broken
          rw [List.append_nil, Function.update_eq_self] at none
          exact none
      | some line => exact sound.torn (part line) (newline_notMem_line written) file broken

theorem Sound.log {t : Trail} (sound : Sound start t) (a : Answers) (e : AuditEvent) :
    Sound start (t.log a e) := by
  obtain ⟨l, d, files, accepted⟩ := t
  unfold Trail.log
  dsimp only
  rcases log_cases (a.system e) l d e with
    ⟨stopped, cause, l', d', out, file, error, turned⟩ | ⟨wrote, out⟩ |
    ⟨l', d', wrote, out, file, error, data, next⟩
  · rw [stopped, out]
    simp only [Option.isNone_some, Bool.false_eq_true, if_false, List.append_nil]
    exact sound.turned turned file error
  · rw [wrote, out]
    have written := sound.write a e
    cases text : encodeEvent e with
    | none =>
        rw [text] at written
        exact written
    | some line =>
        rw [text] at written
        exact written
  · rw [wrote, out]
    have opened : Sound start ⟨l', d', files, accepted⟩ :=
      sound.opened data next (.inr (by rw [file]))
    have written := opened.write a e
    cases text : encodeEvent e with
    | none =>
        rw [text] at written
        exact written
    | some line =>
        rw [text] at written
        exact written

end Steps

structure Started (t : Trail) : Prop where
  opened : ∃ sys cfg d, NewLogger sys cfg d = (.ok t.logger, t.disk)
  whole : ∀ ino, t.files ino =
    if ino < t.disk.next then writeLines ((t.disk.data ino).filterMap encodeEvent) else []
  accepted : t.accepted = []

theorem Started.sound {t : Trail} (started : Started t) : Sound t.disk t := by
  obtain ⟨⟨sys, cfg, d, opened⟩, whole, none⟩ := started
  obtain ⟨-, -, linked⟩ := NewLogger_ok opened
  have same {ino : Nat} (old : ino < t.disk.next) : initially t.disk ino = t.disk.data ino :=
    if_pos old
  refine ⟨t.disk.below _ _ linked, Nat.le_refl _, fun ino unused => ?_, fun ino old => ?_,
    fun ino old => by rw [same old], fun ino _ old => (same old).symm, ?_⟩
  · rw [whole, if_neg (Nat.not_lt_of_le unused)]
  · exact ⟨[], List.not_mem_nil, by rw [whole, if_pos old, List.append_nil], fun _ _ => rfl⟩
  · rw [none, List.flatMap_eq_nil_iff]
    intro ino member
    rw [added, same (List.mem_range.mp member), List.drop_length]

theorem Sound.reads {start : Disk} {t : Trail} (sound : Sound start t) {ino : Nat}
    (old : ino < t.disk.next) (n : Nat) :
    ∃ k, (readLines [] ((t.files ino).take n)).1.map readEntry =
        (((t.disk.data ino).filterMap entryFor).take k).map some ∧
      ((t.files ino).length ≤ n → ((t.disk.data ino).filterMap entryFor).length ≤ k) := by
  obtain ⟨torn, unfinished, whole, -⟩ := sound.lines ino old
  have inside : ∀ line ∈ (t.disk.data ino).filterMap encodeEvent, newline ∉ line := by
    intro line member
    obtain ⟨e, -, written⟩ := List.mem_filterMap.mp member
    exact newline_notMem_line written
  obtain ⟨k, read, all⟩ := readLines_take inside unfinished n
  have entries := readEntry_lines (t.disk.data ino)
  have count := congrArg List.length entries
  rw [List.length_map, List.length_map] at count
  refine ⟨k, ?_, fun long => ?_⟩
  · rw [whole, read, List.map_take, entries, List.map_take]
  · rw [whole, List.length_append] at long
    rw [← count]
    exact all (by omega)

end L3Firewall.Audit.Lines
