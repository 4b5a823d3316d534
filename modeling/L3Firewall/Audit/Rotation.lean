/- Audit/Rotation
   source: internal/audit/audit.go
   digest: The audit logger: events into a file that is rotated by size, and cleanup of backups. -/

import L3Firewall.Filepath.Lexical
import L3Firewall.Foundation.Calendar
import L3Firewall.Foundation.FiniteMap
import L3Firewall.Foundation.Utf8
import Mathlib.Algebra.Order.Ring.Int
import Mathlib.Data.List.Sort
import Mathlib.Logic.Function.Basic

set_option autoImplicit false
set_option relaxedAutoImplicit false

namespace L3Firewall.Audit.Rotation

open Filepath.Lexical (Pathname Dir Base)
open Foundation.Calendar (stamp)
open Foundation.FiniteMap
open Foundation.Utf8 (Bytes encode)

/-- The name of a directory entry. Every path that cleanup builds is the log directory joined
with such a name, so paths compare as the names do. -/
abbrev Name := List Char

/-- Nanoseconds since 1970. -/
abbrev Time := Nat

/-- The seconds since 1970, which a time stamp shows. -/
def second (t : Time) : Nat := t / 1000000000

/-- A reading of the local clock, with the zone in minutes east of Greenwich and the text that
printing gives it. -/
structure Instant where
  nanos : Time
  zone : Int
  shown : String
  deriving DecidableEq

structure AuditEvent where
  timestamp : Instant
  type : String
  traceID : String
  srcIP : String
  dstIP : String
  protocol : String
  srcPort : UInt16
  dstPort : UInt16
  packetSize : Int
  reason : Bytes
  deriving DecidableEq

def bytes (s : String) : Bytes := encode s.toList

/-- An event with the names of its fields, on a line. -/
def AuditEvent.text (e : AuditEvent) : Bytes :=
  bytes ("\x7bTimestamp:" ++ e.timestamp.shown ++ " Type:" ++ e.type ++ " TraceID:" ++ e.traceID ++
    " SrcIP:" ++ e.srcIP ++ " DstIP:" ++ e.dstIP ++ " Protocol:" ++ e.protocol ++
    " SrcPort:" ++ toString e.srcPort.toNat ++ " DstPort:" ++ toString e.dstPort.toNat ++
    " PacketSize:" ++ toString e.packetSize ++ " Reason:") ++ e.reason ++ bytes "\x7d\n"

/-- What the size of the file grows by for an event: a rough estimate, as the event is written
in another form. -/
def AuditEvent.estimate (e : AuditEvent) : Nat := e.text.length

def defaultPath : Pathname := "/tmp/l3-firewall/audit.log".toList

def defaultMaxSizeMB : Nat := 100

def defaultMaxBackups : Nat := 5

/-- How many directory entries a rotation looks at. -/
def maxCleanupEntries : Nat := 4096

/-- Signed 64-bit arithmetic wraps around. -/
def int64 (n : Int) : Int := n.bmod (2 ^ 64)

structure Config where
  path : Pathname
  maxSizeMB : Int
  maxBackups : Int

/-! The log directory. -/

/-- Names of files, and the events in each file. A file without a name keeps its events for
those who have it open. -/
structure Disk where
  entries : FMap Name Nat
  data : Nat → List AuditEvent
  next : Nat
  below : ∀ name ino, entries.lookup name = some ino → ino < next

/-- Opening with O_CREATE and O_APPEND: an empty file is made if there is none. -/
def Disk.openCreate (d : Disk) (name : Name) : Nat × Disk :=
  match d.entries.lookup name with
  | some ino => (ino, d)
  | none =>
      (d.next,
        { entries := d.entries.insert name d.next
          data := Function.update d.data d.next []
          next := d.next + 1
          below := by
            intro other ino found
            rw [lookup_insert_eq] at found
            split at found
            · obtain rfl := Option.some.inj found
              exact Nat.lt_succ_self _
            · exact Nat.lt_succ_of_lt (d.below other ino found) })

/-- An entry that has the new name is replaced. -/
def Disk.rename (d : Disk) (old new : Name) : Option Disk :=
  match found : d.entries.lookup old with
  | none => none
  | some ino => some
      { d with
        entries := (d.entries.erase old).insert new ino
        below := by
          intro other ino' found'
          rw [lookup_insert_eq] at found'
          split at found'
          · obtain rfl := Option.some.inj found'
            exact d.below old ino found
          · rw [lookup_erase_eq] at found'
            split at found'
            · exact absurd found' (by simp)
            · exact d.below other ino' found' }

def Disk.remove (d : Disk) (name : Name) : Disk :=
  { d with
    entries := d.entries.erase name
    below := by
      intro other ino found
      rw [lookup_erase_eq] at found
      split at found
      · exact absurd found (by simp)
      · exact d.below other ino found }

def Disk.append (d : Disk) (ino : Nat) (e : AuditEvent) : Disk :=
  { d with data := Function.update d.data ino (d.data ino ++ [e]) }

/-! Opening the log. -/

structure Handle where
  ino : Nat
  isOpen : Bool

/-- Close fails on a file that is closed. A file is closed also when the call reports an error. -/
def Handle.close (h : Handle) (path : Pathname) (answer : Option String) :
    Option String × Handle :=
  if h.isOpen then
    (answer.map fun err => "close " ++ String.ofList path ++ ": " ++ err,
      { h with isOpen := false })
  else (some ("close " ++ String.ofList path ++ ": file already closed"), h)

/-- What the system answers to the opening of the log: the errors of opening and of asking for
the kind of the file, and whether it is a regular one. -/
structure Opening where
  openFile : Option String
  stat : Option String
  regular : Bool

def openAuditFile (sys : Opening) (path : Pathname) (d : Disk) : Except String Handle × Disk :=
  match sys.openFile with
  | some err => (.error err, d)
  | none =>
      let (ino, d) := d.openCreate (Base path)
      match sys.stat with
      | some err => (.error err, d)
      | none =>
          if sys.regular then (.ok ⟨ino, true⟩, d)
          else (.error ("audit log path is not a regular file: " ++ String.ofList path), d)

/-- At least one backup is kept: `NewLogger` replaces other limits by its default. -/
structure Logger where
  file : Handle
  path : Pathname
  maxSizeMB : Nat
  maxBackups : Nat
  keepsBackups : 0 < maxBackups
  size : Int
  /-- The error of the first write that failed, which the encoder repeats from then on. -/
  encoderErr : Option String
  closed : Bool

/-- A configured limit, or the default for one that is not positive. -/
def orDefault (configured : Int) (default : Nat) : Nat :=
  if configured ≤ 0 then default else configured.toNat

structure Startup where
  mkdir : Option String
  symlink : Option String
  opening : Opening
  /-- The size of the open file. -/
  size : Except String Nat

def NewLogger (sys : Startup) (cfg : Config) (d : Disk) : Except String Logger × Disk :=
  let path := if cfg.path = [] then defaultPath else cfg.path
  if ['.', '.'] <:+: path then (.error ("path traversal rejected: " ++ String.ofList path), d)
  else match sys.mkdir with
    | some err =>
        (.error ("creating audit log directory " ++ String.ofList (Dir path) ++ ": " ++ err), d)
    | none =>
        match sys.symlink with
        | some err => (.error err, d)
        | none =>
            match openAuditFile sys.opening path d with
            | (.error err, d) =>
                (.error ("opening audit log " ++ String.ofList path ++ ": " ++ err), d)
            | (.ok file, d) =>
                match sys.size with
                | .error err =>
                    (.error ("stating audit log " ++ String.ofList path ++ ": " ++ err), d)
                | .ok size =>
                    (.ok
                      { file := file
                        path := path
                        maxSizeMB := orDefault cfg.maxSizeMB defaultMaxSizeMB
                        maxBackups := orDefault cfg.maxBackups defaultMaxBackups
                        keepsBackups := by
                          unfold orDefault
                          split
                          · decide
                          · omega
                        size := size
                        encoderErr := none
                        closed := false }, d)

/-! Rotation. -/

structure System where
  /-- Error of the check for symbolic links on the directory. -/
  symlink : Option String
  /-- Error of closing the current file. -/
  close : Option String
  /-- The clock when the backup gets its name. -/
  now : Time
  rename : Option String
  reopen : Opening
  /-- The order of the directory listing, if the directory can be opened. -/
  listing : Option (RangeOrder Name)
  /-- The number of names after which reading the directory fails. -/
  readable : Option Nat
  removable : Name → Bool
  /-- Error of putting the event into its written form. -/
  marshal : Option String
  write : Option String

inductive RotateError
  | directory (err : String)
  | closing (err : String)
  | renaming (err : String)
  | opening (err : String)
  deriving DecidableEq

def RotateError.text : RotateError → String
  | .directory err => err
  | .closing err => "closing current audit log: " ++ err
  | .renaming err => "renaming audit log: " ++ err
  | .opening err => "opening new audit log: " ++ err

inductive LogError
  | closed
  | rotating (err : RotateError)
  | encoding (err : String)
  deriving DecidableEq

def LogError.text : LogError → String
  | .closed => "audit logger is closed"
  | .rotating err => "rotating audit log: " ++ err.text
  | .encoding err => "encoding audit event: " ++ err

/-- Backups have the name of the log, a dot and the time stamp of their rotation. -/
def backupName (base : Name) (sec : Nat) : Name := base ++ '.' :: stamp sec

def isBackup (base name : Name) : Bool := (base ++ ['.']).isPrefixOf name

/-- At most `maxCleanupEntries` names, in directory order. -/
def System.readdirnames (sys : System) (d : Disk) : Option (List Name) :=
  sys.listing.map fun order =>
    (order.order d.entries.keys).take (min maxCleanupEntries (sys.readable.getD maxCleanupEntries))

/-- A failed removal leaves the entry in place. -/
def System.remove (sys : System) (d : Disk) (name : Name) : Disk :=
  if sys.removable name then d.remove name else d

def cleanupLocked (sys : System) (l : Logger) (d : Disk) : Disk :=
  match sys.readdirnames d with
  | none => d
  | some names =>
      let found := names.filter (isBackup (Base l.path))
      if found.length ≤ l.maxBackups then d
      else ((found.insertionSort (· ≤ ·)).take (found.length - l.maxBackups)).foldl sys.remove d

/-- The handle is closed before the rename, and replaced only when the new file is open. -/
def rotateLocked (sys : System) (l : Logger) (d : Disk) : Option RotateError × Logger × Disk :=
  match sys.symlink with
  | some err => (some (.directory err), l, d)
  | none =>
      match l.file.close l.path sys.close with
      | (some err, file) => (some (.closing err), { l with file := file }, d)
      | (none, file) =>
          let rotatedPath := l.path ++ '.' :: stamp (second sys.now)
          let linkError (err : String) := "rename " ++ String.ofList l.path ++ " " ++
            String.ofList rotatedPath ++ ": " ++ err
          match sys.rename with
          | some err => (some (.renaming (linkError err)), { l with file := file }, d)
          | none =>
              match d.rename (Base l.path) (backupName (Base l.path) (second sys.now)) with
              | none =>
                  (some (.renaming (linkError "no such file or directory")),
                    { l with file := file }, d)
              | some d =>
                  match openAuditFile sys.reopen l.path d with
                  | (.error err, d) => (some (.opening err), { l with file := file }, d)
                  | (.ok file, d) =>
                      let l := { l with file := file, size := 0, encoderErr := none }
                      (none, l, cleanupLocked sys l d)

def Logger.due (l : Logger) : Bool := decide (int64 (l.maxSizeMB * 1024 * 1024) ≤ l.size)

def writeEvent (sys : System) (l : Logger) (d : Disk) (e : AuditEvent) :
    Option LogError × Logger × Disk :=
  let writeError (err : String) := "write " ++ String.ofList l.path ++ ": " ++ err
  let failed (err : String) := (some (.encoding err), { l with encoderErr := some err }, d)
  match l.encoderErr with
  | some err => (some (.encoding err), l, d)
  | none =>
      match sys.marshal with
      | some err => (some (.encoding err), l, d)
      | none =>
          if l.file.isOpen then
            match sys.write with
            | some err => failed (writeError err)
            | none =>
                (none, { l with size := int64 (l.size + e.estimate) }, d.append l.file.ino e)
          else failed (writeError "file already closed")

def Log (sys : System) (l : Logger) (d : Disk) (e : AuditEvent) :
    Option LogError × Logger × Disk :=
  if l.closed then (some .closed, l, d)
  else if l.due then
    match rotateLocked sys l d with
    | (some err, l, d) => (some (.rotating err), l, d)
    | (none, l, d) => writeEvent sys l d e
  else writeEvent sys l d e

def Close (l : Logger) (answer : Option String) : Option String × Logger :=
  if l.closed then (none, l)
  else
    let (err, file) := l.file.close l.path answer
    (err, { l with file := file, closed := true })

/-- Every operation that a call to `Log` makes on the log file succeeds. -/
def System.grants (sys : System) : Bool :=
  sys.symlink.isNone && sys.close.isNone && sys.rename.isNone && sys.reopen.openFile.isNone &&
    sys.reopen.stat.isNone && sys.reopen.regular && sys.write.isNone

/-! What the operations do to the names. -/

variable {sys : System} {l : Logger} {d d' : Disk} {name : Name}

private theorem remove_lookup (target : Name) : (sys.remove d target).entries.lookup name =
    if sys.removable target = true ∧ name = target then none else d.entries.lookup name := by
  unfold System.remove
  by_cases able : sys.removable target = true
  · rw [if_pos able]
    by_cases same : name = target
    · rw [if_pos ⟨able, same⟩, Disk.remove, lookup_erase_eq, if_pos same]
    · rw [if_neg (fun both => same both.2), Disk.remove, lookup_erase_eq, if_neg same]
  · rw [if_neg able, if_neg (fun both => able both.1)]

private theorem remove_data (target : Name) : (sys.remove d target).data = d.data := by
  unfold System.remove
  split <;> rfl

private theorem removals_lookup (targets : List Name) :
    (targets.foldl sys.remove d).entries.lookup name = d.entries.lookup name ∨
      name ∈ targets ∧ (targets.foldl sys.remove d).entries.lookup name = none := by
  induction targets generalizing d with
  | nil => exact .inl rfl
  | cons target rest ih =>
      rw [List.foldl_cons]
      rcases @ih (sys.remove d target) with same | ⟨later, gone⟩
      · rw [same, remove_lookup]
        by_cases hit : sys.removable target = true ∧ name = target
        · rw [if_pos hit]
          exact .inr ⟨List.mem_cons.mpr (.inl hit.2), rfl⟩
        · rw [if_neg hit]
          exact .inl rfl
      · exact .inr ⟨List.mem_cons_of_mem target later, gone⟩

private theorem removals_data (targets : List Name) :
    (targets.foldl sys.remove d).data = d.data := by
  induction targets generalizing d with
  | nil => rfl
  | cons target rest ih => rw [List.foldl_cons, ih, remove_data]

def scanned (sys : System) (l : Logger) (d : Disk) : List Name :=
  ((sys.readdirnames d).getD []).filter (isBackup (Base l.path))

theorem cleanupLocked_lookup (sys : System) (l : Logger) (d : Disk) (name : Name) :
    (cleanupLocked sys l d).entries.lookup name = d.entries.lookup name ∨
      name ∈ ((scanned sys l d).insertionSort (· ≤ ·)).take
        ((scanned sys l d).length - l.maxBackups) ∧
      (cleanupLocked sys l d).entries.lookup name = none := by
  unfold cleanupLocked scanned
  cases sys.readdirnames d with
  | none => exact .inl rfl
  | some names =>
      dsimp only [Option.getD_some]
      split
      · exact .inl rfl
      · exact removals_lookup _

theorem cleanupLocked_data (sys : System) (l : Logger) (d : Disk) :
    (cleanupLocked sys l d).data = d.data := by
  unfold cleanupLocked
  cases sys.readdirnames d with
  | none => rfl
  | some names =>
      dsimp only
      split
      · rfl
      · exact removals_data _

theorem cleanupLocked_spares (sys : System) (d : Disk)
    (other : isBackup (Base l.path) name = false) :
    (cleanupLocked sys l d).entries.lookup name = d.entries.lookup name := by
  rcases cleanupLocked_lookup sys l d name with same | ⟨doomed, -⟩
  · exact same
  · have sorted := List.mem_of_mem_take doomed
    have found := (List.perm_insertionSort (· ≤ ·) (scanned sys l d)).mem_iff.mp sorted
    exact absurd (List.mem_filter.mp found).2 (by simp [other])

theorem isBackup_self (base : Name) : isBackup base base = false := by
  unfold isBackup
  by_contra isPrefix
  have within := List.IsPrefix.length_le
    (List.isPrefixOf_iff_prefix.mp (Bool.eq_true_of_not_eq_false isPrefix))
  rw [List.length_append, List.length_singleton] at within
  omega

theorem isBackup_backupName (base : Name) (sec : Nat) :
    isBackup base (backupName base sec) = true := by
  unfold isBackup backupName
  apply List.isPrefixOf_iff_prefix.mpr
  exact ⟨stamp sec, by rw [List.append_assoc]; rfl⟩

theorem base_ne_backupName (base : Name) (sec : Nat) : base ≠ backupName base sec := by
  intro same
  have self := isBackup_self base
  rw [same] at self
  have backup := isBackup_backupName base sec
  rw [← same] at backup self
  exact absurd backup (by simp [isBackup_self])

theorem rename_spec {old : Name} {ino : Nat} (found : d.entries.lookup old = some ino)
    (new : Name) :
    ∃ d', d.rename old new = some d' ∧
      (∀ name, d'.entries.lookup name =
        if name = new then some ino else if name = old then none else d.entries.lookup name) ∧
      d'.data = d.data ∧ d'.next = d.next := by
  unfold Disk.rename
  split
  · next missing => exact absurd found (by simp [missing])
  · next ino' found' =>
      obtain rfl : ino' = ino := Option.some.inj (found'.symm.trans found)
      refine ⟨_, rfl, fun name => ?_, rfl, rfl⟩
      rw [lookup_insert_eq, lookup_erase_eq]

theorem openCreate_new (missing : d.entries.lookup name = none) :
    (d.openCreate name).1 = d.next ∧
      (∀ other, (d.openCreate name).2.entries.lookup other =
        if other = name then some d.next else d.entries.lookup other) ∧
      (d.openCreate name).2.data = Function.update d.data d.next [] := by
  unfold Disk.openCreate
  split
  · next found => exact absurd found (by simp [missing])
  · exact ⟨rfl, fun other => lookup_insert_eq .., rfl⟩

theorem openCreate_lookup (d : Disk) (name : Name) :
    (d.openCreate name).2.entries.lookup name = some (d.openCreate name).1 := by
  unfold Disk.openCreate
  split
  · next found => exact found
  · exact AList.lookup_insert _

private theorem openAuditFile_ok {ans : Opening} {path : Pathname} {file : Handle}
    (opened : openAuditFile ans path d = (.ok file, d')) :
    file.isOpen = true ∧ d'.entries.lookup (Base path) = some file.ino := by
  unfold openAuditFile at opened
  split at opened
  · exact absurd opened (by simp)
  · dsimp only at opened
    split at opened
    · exact absurd opened (by simp)
    · split at opened
      · obtain ⟨rfl, rfl⟩ := Prod.mk.inj opened |>.imp_left Except.ok.inj
        exact ⟨rfl, openCreate_lookup d (Base path)⟩
      · exact absurd opened (by simp)

theorem NewLogger_ok {start : Startup} {cfg : Config}
    (started : NewLogger start cfg d = (.ok l, d')) :
    l.file.isOpen = true ∧ l.encoderErr = none ∧
      d'.entries.lookup (Base l.path) = some l.file.ino := by
  unfold NewLogger at started
  dsimp only at started
  generalize (if cfg.path = [] then defaultPath else cfg.path) = path at started
  split at started
  · exact absurd started (by simp)
  · split at started
    · exact absurd started (by simp)
    · split at started
      · exact absurd started (by simp)
      · split at started
        · exact absurd started (by simp)
        · next opened =>
            split at started
            · exact absurd started (by simp)
            · obtain ⟨rfl, rfl⟩ := Prod.mk.inj started |>.imp_left Except.ok.inj
              obtain ⟨isOpen, found⟩ := openAuditFile_ok opened
              exact ⟨isOpen, rfl, found⟩

def Logger.reopened (l : Logger) (ino : Nat) : Logger :=
  { l with file := ⟨ino, true⟩, size := 0, encoderErr := none }

theorem rotateLocked_granted (granted : sys.grants = true) (isOpen : l.file.isOpen = true)
    (renamed : d.rename (Base l.path) (backupName (Base l.path) (second sys.now)) = some d') :
    rotateLocked sys l d =
      (none, l.reopened (d'.openCreate (Base l.path)).1,
        cleanupLocked sys (l.reopened (d'.openCreate (Base l.path)).1)
          (d'.openCreate (Base l.path)).2) := by
  simp only [System.grants, Bool.and_eq_true, Option.isNone_iff_eq_none] at granted
  obtain ⟨⟨⟨⟨⟨⟨symlink, close⟩, rename⟩, openFile⟩, stat⟩, regular⟩, -⟩ := granted
  have closing : l.file.close l.path sys.close = (none, { l.file with isOpen := false }) := by
    rw [Handle.close, if_pos isOpen, close]
    rfl
  have opening : openAuditFile sys.reopen l.path d' =
      (.ok ⟨(d'.openCreate (Base l.path)).1, true⟩, (d'.openCreate (Base l.path)).2) := by
    rw [openAuditFile, openFile]
    dsimp only
    rw [stat]
    exact if_pos regular
  rw [rotateLocked, symlink]
  dsimp only
  rw [closing, rename]
  dsimp only
  rw [renamed]
  dsimp only
  rw [opening]
  rfl

theorem writeEvent_granted (granted : sys.grants = true) (encodes : sys.marshal = none)
    (ready : l.encoderErr = none) (isOpen : l.file.isOpen = true) (e : AuditEvent) :
    writeEvent sys l d e =
      (none, { l with size := int64 (l.size + e.estimate) }, d.append l.file.ino e) := by
  simp only [System.grants, Bool.and_eq_true, Option.isNone_iff_eq_none] at granted
  obtain ⟨-, write⟩ := granted
  rw [writeEvent, ready]
  dsimp only
  rw [encodes]
  dsimp only
  rw [if_pos isOpen, write]

/-! A directory and a system to start from. -/

def calm (now : Time) : System where
  symlink := none
  close := none
  now := now
  rename := none
  reopen := ⟨none, none, true⟩
  listing := some .stored
  readable := none
  removable := fun _ => true
  marshal := none
  write := none

def emptyDisk : Disk where
  entries := ∅
  data := fun _ => []
  next := 0
  below := by
    intro name ino found
    rw [AList.lookup_empty] at found
    exact absurd found (by simp)

/-- The logger and the directory after a start in an empty one. -/
def launched (sys : Startup) (cfg : Config) : Logger × Disk :=
  match NewLogger sys cfg emptyDisk with
  | (.ok logger, disk) => (logger, disk)
  | (.error _, disk) => (⟨⟨0, false⟩, [], 0, 1, by decide, 0, none, true⟩, disk)

def someEvent : AuditEvent :=
  ⟨⟨1767225600000000000, 0, "2026-01-01 00:00:00 +0000 UTC"⟩, "packet_block", "", "10.0.0.1",
    "10.0.0.2", "TCP", 40000, 22, 60, bytes "default_deny"⟩

end L3Firewall.Audit.Rotation
