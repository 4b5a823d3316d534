/- Audit/Backups
   source: internal/audit/audit.go
   digest: Which runs of the audit logger keep every event until its backup ages out. -/

import L3Firewall.Audit.Rotation
import L3Firewall.Foundation.Ranking
import L3Firewall.Foundation.Runs

set_option autoImplicit false
set_option relaxedAutoImplicit false

namespace L3Firewall.Audit.Backups

open Filepath.Lexical (Base)
open Foundation.Calendar
open Foundation.FiniteMap
open Foundation.Ranking
open Foundation.Runs
open Rotation

/-! Runs of a logger. -/

/-- A log file that was rotated out: when, which file it is, and the events of this run in it. -/
structure Backup where
  sec : Nat
  ino : Nat
  events : List AuditEvent

/-- The logger and its directory, with the last reading of the clock, the files that were
rotated out in this run, oldest first, and the events since then. -/
structure State where
  logger : Logger
  disk : Disk
  clock : Time
  backups : List Backup
  current : List AuditEvent

inductive Act
  | log (sys : System) (e : AuditEvent)
  | close (answer : Option String)

def State.rotates (s : State) : Bool := !s.logger.closed && s.logger.due

def State.outgoing (s : State) (sys : System) : Backup where
  sec := second sys.now
  ino := s.logger.file.ino
  events := s.current

/-- The records are those of a call in which every file operation succeeds. -/
def State.log (s : State) (sys : System) (e : AuditEvent) : State :=
  let out := Log sys s.logger s.disk e
  { logger := out.2.1
    disk := out.2.2
    clock := sys.now
    backups := if s.rotates then s.backups ++ [s.outgoing sys] else s.backups
    current := (if s.rotates then [] else s.current) ++ if out.1.isNone then [e] else [] }

def State.step (s : State) : Act → State
  | .log sys e => s.log sys e
  | .close answer => { s with logger := (Close s.logger answer).2 }

def State.base (s : State) : Name := Base s.logger.path

/-- No file has two names, and the backups that are there come from rotations before now. -/
structure Tidy (s : State) : Prop where
  single : ∀ name name' ino, s.disk.entries.lookup name = some ino →
    s.disk.entries.lookup name' = some ino → name = name'
  past : ∀ name ino, s.disk.entries.lookup name = some ino → isBackup s.base name = true →
    ∃ sec, name = backupName s.base sec ∧ sec ≤ second s.clock

def auditing : Machine State Act where
  init s := (∃ sys cfg d, NewLogger sys cfg d = (.ok s.logger, s.disk)) ∧ Tidy s ∧
    s.backups = [] ∧ s.current = []
  next s act := some (s.step act)

/-- Every file operation succeeds, and the clock does not go back and shows years of four
digits. -/
def Granted (s : State) : Act → Prop
  | .log sys _ => sys.grants = true ∧ s.clock ≤ sys.now ∧ yearOf (second sys.now) < 10000
  | .close _ => True

/-- Every event is in the file it was written to, and that file has a name: the log itself, or
a backup that fewer than `maxBackups` rotations have followed. -/
def Kept (s : State) : Prop :=
  (∀ e ∈ s.current, ∃ ino, s.disk.entries.lookup s.base = some ino ∧ e ∈ s.disk.data ino) ∧
  ∀ b ∈ s.backups.rtake s.logger.maxBackups, ∀ e ∈ b.events,
    ∃ name, isBackup s.base name = true ∧ s.disk.entries.lookup name = some b.ino ∧
      e ∈ s.disk.data b.ino

def Keeps (s : State) (act : Act) : Prop := Kept (s.step act)

/-- A rotation does not fall into the second of another whose backup is still to be kept and
has events of this run. -/
def Apart (s : State) : Act → Prop
  | .log sys _ => s.rotates = true →
      ∀ b ∈ s.backups.rtake (s.logger.maxBackups - 1), b.events ≠ [] → b.sec ≠ second sys.now
  | .close _ => True

/-! The two parts of a call. -/

def State.rotate (s : State) (sys : System) : State where
  logger := (rotateLocked sys s.logger s.disk).2.1
  disk := (rotateLocked sys s.logger s.disk).2.2
  clock := sys.now
  backups := s.backups ++ [s.outgoing sys]
  current := []

def State.write (s : State) (sys : System) (e : AuditEvent) : State where
  logger := (writeEvent sys s.logger s.disk e).2.1
  disk := (writeEvent sys s.logger s.disk e).2.2
  clock := sys.now
  backups := s.backups
  current := s.current ++ if (writeEvent sys s.logger s.disk e).1.isNone then [e] else []

/-- What holds of a logger between two calls, when the first call was not before a second. -/
structure Sound (first : Nat) (s : State) : Prop where
  single : ∀ name name' ino, s.disk.entries.lookup name = some ino →
    s.disk.entries.lookup name' = some ino → name = name'
  named : ∀ name ino, s.disk.entries.lookup name = some ino → isBackup s.base name = true →
    ∃ sec, name = backupName s.base sec ∧ sec ≤ second s.clock ∧
      (sec ≤ first ∨ sec ∈ s.backups.map Backup.sec)
  sorted : (s.backups.map Backup.sec).Pairwise (· ≤ ·)
  timely : ∀ b ∈ s.backups, first ≤ b.sec ∧ b.sec ≤ second s.clock
  begun : first ≤ second s.clock
  linked : s.disk.entries.lookup s.base = some s.logger.file.ino
  ready : s.logger.closed = false → s.logger.file.isOpen = true ∧ s.logger.encoderErr = none
  held : ∀ e ∈ s.current, e ∈ s.disk.data s.logger.file.ino
  kept : ∀ b ∈ s.backups.rtake s.logger.maxBackups, b.events ≠ [] →
    s.disk.entries.lookup (backupName s.base b.sec) = some b.ino ∧
      ∀ e ∈ b.events, e ∈ s.disk.data b.ino

variable {first : Nat} {s : State} {sys : System} {e : AuditEvent}

private theorem Sound.all_kept (sound : Sound first s) : Kept s := by
  refine ⟨fun e member => ⟨_, sound.linked, sound.held e member⟩, fun b due e member => ?_⟩
  obtain ⟨found, there⟩ := sound.kept b due (List.ne_nil_of_mem member)
  exact ⟨_, isBackup_backupName _ _, found, there e member⟩

private theorem log_closed (closed : s.logger.closed = true) :
    s.log sys e = { s with clock := sys.now } := by
  have idle : s.rotates = false := by rw [State.rotates, closed]; rfl
  simp [State.log, Log, closed, idle]

private theorem log_plain (ready : s.logger.closed = false) (early : s.logger.due = false) :
    s.log sys e = s.write sys e := by
  have idle : s.rotates = false := by rw [State.rotates, early, Bool.and_false]
  simp [State.log, State.write, Log, ready, early, idle]

private theorem log_due (ready : s.logger.closed = false) (due : s.logger.due = true)
    (succeeds : (rotateLocked sys s.logger s.disk).1 = none) :
    s.log sys e = (s.rotate sys).write sys e := by
  have rotates : s.rotates = true := by rw [State.rotates, ready, due]; rfl
  rcases out : rotateLocked sys s.logger s.disk with ⟨err, l, d⟩
  rw [out] at succeeds
  obtain rfl : err = none := succeeds
  simp [State.log, State.write, State.rotate, Log, ready, due, rotates, out]

/-! Writing. -/

private theorem mem_append_data {d : Disk} {ino i : Nat} {x : AuditEvent} (member : x ∈ d.data i) :
    x ∈ (d.append ino e).data i := by
  unfold Disk.append
  by_cases same : i = ino
  · subst same
    simp [member]
  · simpa [Function.update_of_ne same] using member

private theorem Sound.tick (sound : Sound first s) {now : Time} (later : s.clock ≤ now) :
    Sound first { s with clock := now } := by
  have seconds : second s.clock ≤ second now := Nat.div_le_div_right later
  refine ⟨sound.single, ?_, sound.sorted, ?_, sound.begun.trans seconds, sound.linked, sound.ready,
    sound.held, sound.kept⟩
  · intro name ino found backup
    obtain ⟨sec, same, past, known⟩ := sound.named name ino found backup
    exact ⟨sec, same, past.trans seconds, known⟩
  · intro b member
    exact ⟨(sound.timely b member).1, (sound.timely b member).2.trans seconds⟩

private theorem Sound.write (sound : Sound first s) (granted : sys.grants = true)
    (open_ : s.logger.closed = false) (later : s.clock ≤ sys.now) :
    Sound first (s.write sys e) := by
  obtain ⟨isOpen, working⟩ := sound.ready open_
  cases marshal : sys.marshal with
  | some err =>
      have refused : writeEvent sys s.logger s.disk e =
          (some (.encoding err), s.logger, s.disk) := by
        rw [writeEvent, working]
        dsimp only
        rw [marshal]
      have same : s.write sys e = { s with clock := sys.now } := by
        simp [State.write, refused]
      rw [same]
      exact sound.tick later
  | none =>
      have done := @writeEvent_granted sys s.logger s.disk granted marshal working isOpen e
      have next := sound.tick later
      unfold State.write
      rw [done]
      refine ⟨next.single, next.named, next.sorted, next.timely, next.begun, next.linked,
        next.ready, ?_, ?_⟩
      · intro x member
        rcases List.mem_append.mp member with old | new
        · exact mem_append_data (next.held x old)
        · obtain rfl : x = e := by simpa using new
          simp [Disk.append]
      · intro b due some_event
        obtain ⟨found, there⟩ := next.kept b due some_event
        exact ⟨found, fun x member => mem_append_data (there x member)⟩

/-! Rotating. -/

private theorem backupName_lt (base : Name) {a b : Nat} (lower : a < b) (era : yearOf b < 10000) :
    backupName base a < backupName base b := by
  apply List.append_left_lt
  exact List.cons_lt_cons_iff.mpr (.inr ⟨rfl, stamp_lt lower era⟩)

private theorem backupName_injective {base : Name} {a b : Nat} (era : yearOf a < 10000)
    (era' : yearOf b < 10000) (same : backupName base a = backupName base b) : a = b := by
  have tails := List.append_cancel_left same
  exact stamp_injective era era' (List.cons.inj tails).2

private theorem rotateLocked_renames (granted : sys.grants = true) {l : Logger} {d : Disk}
    {old : Nat}
    (isOpen : l.file.isOpen = true) (linked : d.entries.lookup (Base l.path) = some old) :
    ∃ d', rotateLocked sys l d =
        (none, l.reopened d.next, cleanupLocked sys (l.reopened d.next) d') ∧
      (∀ name, d'.entries.lookup name =
        if name = Base l.path then some d.next
        else if name = backupName (Base l.path) (second sys.now) then some old
        else d.entries.lookup name) ∧
      d'.data = Function.update d.data d.next [] := by
  have apart := base_ne_backupName (Base l.path) (second sys.now)
  obtain ⟨d₁, renamed, entries, data, next⟩ :=
    rename_spec linked (backupName (Base l.path) (second sys.now))
  have gone : d₁.entries.lookup (Base l.path) = none := by
    rw [entries, if_neg apart, if_pos rfl]
  obtain ⟨ino, created, fresh⟩ := openCreate_new gone
  rw [next] at ino created fresh
  refine ⟨(d₁.openCreate (Base l.path)).2, ?_, fun name => ?_, by rw [fresh, data]⟩
  · rw [rotateLocked_granted granted isOpen renamed, ino]
  · rw [created, entries]
    by_cases own : name = Base l.path
    · rw [if_pos own, if_pos own]
    · rw [if_neg own, if_neg own, if_neg own]

/-! Cleanup. -/

private theorem scanned_nodup (sys : System) (l : Logger) (d : Disk) : (scanned sys l d).Nodup := by
  apply List.Nodup.filter
  unfold System.readdirnames
  cases sys.listing with
  | none => exact List.nodup_nil
  | some order =>
      have whole : (order.order d.entries.keys).Nodup :=
        (order.perm d.entries.keys).nodup_iff.mpr d.entries.keys_nodup
      exact whole.sublist (List.take_sublist _ _)

private theorem mem_scanned {l : Logger} {d : Disk} {name : Name}
    (member : name ∈ scanned sys l d) :
    (∃ ino, d.entries.lookup name = some ino) ∧ isBackup (Base l.path) name = true := by
  obtain ⟨seen, backup⟩ := List.mem_filter.mp member
  refine ⟨?_, backup⟩
  unfold System.readdirnames at seen
  cases listing : sys.listing with
  | none =>
      rw [listing] at seen
      exact absurd seen (by simp)
  | some order =>
      rw [listing] at seen
      have listed := (order.perm d.entries.keys).mem_iff.mp (List.mem_of_mem_take seen)
      exact Option.isSome_iff_exists.mp (AList.lookup_isSome.mpr (AList.mem_keys.mpr listed))

private theorem few_above {found : List Name} {base : Name} {now sec : Nat} {front back : List Nat}
    (distinct : found.Nodup) (era : yearOf now < 10000) (upper : sec ≤ now) (lower : first ≤ sec)
    (sorted : (front ++ sec :: back).Pairwise (· ≤ ·))
    (named : ∀ name ∈ found, ∃ t, name = backupName base t ∧ t ≤ now ∧
      (t ≤ first ∨ t ∈ front ++ sec :: back)) :
    found.countP (fun name => decide (backupName base sec ≤ name)) ≤ back.length + 1 := by
  obtain ⟨-, -, before⟩ := List.pairwise_append.mp sorted
  have within : found.filter (fun name => decide (backupName base sec ≤ name)) ⊆
      (sec :: back).map (backupName base) := by
    intro name member
    obtain ⟨seen, above⟩ := List.mem_filter.mp member
    obtain ⟨t, rfl, past, known⟩ := named name seen
    have not_earlier : ¬ t < sec := fun earlier =>
      absurd (backupName_lt base earlier (Nat.lt_of_le_of_lt (yearOf_mono upper) era))
        (not_lt.mpr (of_decide_eq_true above))
    apply List.mem_map_of_mem
    rcases known with old | member
    · obtain rfl : t = sec := by omega
      exact List.mem_cons_self
    · rcases List.mem_append.mp member with earlier | later
      · have le := before t earlier sec List.mem_cons_self
        obtain rfl : t = sec := by omega
        exact List.mem_cons_self
      · exact later
  have short := (List.subperm_of_subset (distinct.filter _) within).length_le
  rw [List.length_map, List.length_cons] at short
  rwa [List.countP_eq_length_filter]

private theorem cleanup_spares_last {l : Logger} {d : Disk} {now sec : Nat} {front back : List Nat}
    (era : yearOf now < 10000) (upper : sec ≤ now) (lower : first ≤ sec)
    (sorted : (front ++ sec :: back).Pairwise (· ≤ ·)) (few : back.length < l.maxBackups)
    (named : ∀ name ino, d.entries.lookup name = some ino → isBackup (Base l.path) name = true →
      ∃ t, name = backupName (Base l.path) t ∧ t ≤ now ∧ (t ≤ first ∨ t ∈ front ++ sec :: back)) :
    (cleanupLocked sys l d).entries.lookup (backupName (Base l.path) sec) =
      d.entries.lookup (backupName (Base l.path) sec) := by
  rcases cleanupLocked_lookup sys l d (backupName (Base l.path) sec) with same | ⟨doomed, -⟩
  · exact same
  · obtain ⟨-, many⟩ := (mem_without_greatest (scanned_nodup sys l d) _ _).mp doomed
    have known : ∀ name ∈ scanned sys l d, ∃ t, name = backupName (Base l.path) t ∧ t ≤ now ∧
        (t ≤ first ∨ t ∈ front ++ sec :: back) := by
      intro name member
      obtain ⟨⟨ino, found⟩, backup⟩ := mem_scanned member
      exact named name ino found backup
    have above := few_above (scanned_nodup sys l d) era upper lower sorted known
    omega

private theorem cleanup_found {l : Logger} {d : Disk} {name : Name} {ino : Nat}
    (found : (cleanupLocked sys l d).entries.lookup name = some ino) :
    d.entries.lookup name = some ino := by
  rcases cleanupLocked_lookup sys l d name with same | ⟨-, gone⟩
  · rwa [same] at found
  · exact absurd found (by simp [gone])

/-! A rotation of a sound logger. -/

private theorem Sound.rotation (sound : Sound first s) (granted : sys.grants = true)
    (ready : s.logger.closed = false) : ∃ d,
      s.rotate sys = ⟨s.logger.reopened s.disk.next, cleanupLocked sys
        (s.logger.reopened s.disk.next) d, sys.now, s.backups ++ [s.outgoing sys], []⟩ ∧
      (rotateLocked sys s.logger s.disk).1 = none ∧
      (∀ name, d.entries.lookup name =
        if name = s.base then some s.disk.next
        else if name = backupName s.base (second sys.now) then some s.logger.file.ino
        else s.disk.entries.lookup name) ∧
      d.data = Function.update s.disk.data s.disk.next [] := by
  obtain ⟨d, rotated, entries, data⟩ :=
    rotateLocked_renames granted (sound.ready ready).1 sound.linked
  refine ⟨d, ?_, by rw [rotated], entries, data⟩
  rw [State.rotate, rotated]

private theorem due_after {b c : Backup} {backups : List Backup} {count : Nat}
    (positive : 0 < count)
    (due : b ∈ (backups ++ [c]).rtake count) : b = c ∨ b ∈ backups.rtake (count - 1) := by
  obtain ⟨rest, rfl⟩ : ∃ rest, count = rest + 1 := ⟨count - 1, by omega⟩
  rw [List.rtake_concat_succ] at due
  rcases List.mem_append.mp due with old | new
  · exact .inr old
  · exact .inl (List.mem_singleton.mp new)

private theorem rtake_pred_subset {α : Type} (l : List α) (count : Nat) :
    l.rtake (count - 1) ⊆ l.rtake count := by
  rw [List.rtake, List.rtake]
  exact List.drop_subset_drop_left l (by omega)

section Before

/-! The directory before cleanup. -/

variable {d : Disk} {name name' : Name} {ino : Nat} (sound : Sound first s)
  (entries : ∀ name, d.entries.lookup name =
    if name = s.base then some s.disk.next
    else if name = backupName s.base (second sys.now) then some s.logger.file.ino
    else s.disk.entries.lookup name)

include entries

private theorem found_before (found : d.entries.lookup name = some ino) :
    name = s.base ∧ ino = s.disk.next ∨
    name = backupName s.base (second sys.now) ∧ ino = s.logger.file.ino ∨
    name ≠ s.base ∧ name ≠ backupName s.base (second sys.now) ∧
      s.disk.entries.lookup name = some ino := by
  rw [entries] at found
  split at found
  · next own => exact .inl ⟨own, (Option.some.inj found).symm⟩
  · next other =>
      split at found
      · next new => exact .inr (.inl ⟨new, (Option.some.inj found).symm⟩)
      · next old => exact .inr (.inr ⟨other, old, found⟩)

include sound

private theorem Sound.named_before (later : s.clock ≤ sys.now)
    (found : d.entries.lookup name = some ino)
    (backup : isBackup s.base name = true) :
    ∃ sec, name = backupName s.base sec ∧ sec ≤ second sys.now ∧
      (sec ≤ first ∨ sec ∈ s.backups.map Backup.sec ++ [second sys.now]) := by
  rcases found_before entries found with ⟨rfl, -⟩ | ⟨new, -⟩ | ⟨-, -, old⟩
  · exact absurd backup (by simp [isBackup_self])
  · exact ⟨_, new, Nat.le_refl _, .inr (by simp)⟩
  · obtain ⟨sec, same, past, known⟩ := sound.named name ino old backup
    refine ⟨sec, same, past.trans (Nat.div_le_div_right later), ?_⟩
    exact known.imp_right (List.mem_append_left _)

private theorem Sound.single_before (found : d.entries.lookup name = some ino)
    (found' : d.entries.lookup name' = some ino) : name = name' := by
  have current := s.disk.below _ _ sound.linked
  rcases found_before entries found with ⟨own, new⟩ | ⟨own, old⟩ | ⟨other, -, there⟩
  · rcases found_before entries found' with ⟨own', -⟩ | ⟨-, old'⟩ | ⟨-, -, there'⟩
    · rw [own, own']
    · omega
    · have below := s.disk.below _ _ there'
      omega
  · rcases found_before entries found' with ⟨-, new'⟩ | ⟨own', -⟩ | ⟨other', -, there'⟩
    · omega
    · rw [own, own']
    · rw [old] at there'
      exact absurd (sound.single _ _ _ there' sound.linked) other'
  · rcases found_before entries found' with ⟨-, new'⟩ | ⟨-, old'⟩ | ⟨-, -, there'⟩
    · have below := s.disk.below _ _ there
      omega
    · rw [old'] at there
      exact absurd (sound.single _ _ _ there sound.linked) other
    · exact sound.single _ _ _ there there'

end Before

private theorem Sound.rotate (sound : Sound first s) (granted : sys.grants = true)
    (ready : s.logger.closed = false) (later : s.clock ≤ sys.now)
    (era : yearOf (second sys.now) < 10000)
    (apart : ∀ b ∈ s.backups.rtake (s.logger.maxBackups - 1), b.events ≠ [] →
      b.sec ≠ second sys.now) :
    Sound first (s.rotate sys) := by
  obtain ⟨d, rotated, -, entries, data⟩ := sound.rotation granted ready
  have seconds : second s.clock ≤ second sys.now := Nat.div_le_div_right later
  have sorted : (s.backups.map Backup.sec ++ [second sys.now]).Pairwise (· ≤ ·) := by
    refine List.pairwise_append.mpr ⟨sound.sorted, List.pairwise_singleton _ _, ?_⟩
    intro sec old now new
    obtain ⟨b, member, rfl⟩ := List.mem_map.mp old
    obtain rfl := List.mem_singleton.mp new
    exact (sound.timely b member).2.trans seconds
  have timely : ∀ b ∈ s.backups ++ [s.outgoing sys], first ≤ b.sec ∧ b.sec ≤ second sys.now := by
    intro b member
    rcases List.mem_append.mp member with old | new
    · exact ⟨(sound.timely b old).1, (sound.timely b old).2.trans seconds⟩
    · obtain rfl := List.mem_singleton.mp new
      exact ⟨sound.begun.trans seconds, Nat.le_refl _⟩
  have stored {ino : Nat} (old : ino < s.disk.next) {x : AuditEvent}
      (member : x ∈ s.disk.data ino) :
      x ∈ (cleanupLocked sys (s.logger.reopened s.disk.next) d).data ino := by
    rwa [cleanupLocked_data, data, Function.update_of_ne (Nat.ne_of_lt old)]
  have own : d.entries.lookup s.base = some s.disk.next := by rw [entries, if_pos rfl]
  rw [rotated]
  refine ⟨?_, ?_, ?_, timely, sound.begun.trans seconds, ?_, fun _ => ⟨rfl, rfl⟩, ?_, ?_⟩
  · intro name name' ino found found'
    exact sound.single_before entries (cleanup_found found) (cleanup_found found')
  · intro name ino found backup
    rw [List.map_append]
    exact sound.named_before entries later (cleanup_found found) backup
  · rw [List.map_append]
    exact sorted
  · exact (cleanupLocked_spares sys d (isBackup_self _)).trans own
  · intro e member
    exact absurd member List.not_mem_nil
  · intro b due some_event
    replace due : b ∈ (s.backups ++ [s.outgoing sys]).rtake s.logger.maxBackups := due
    -- A backup that is still to be kept has few rotations after it, so that cleanup spares it.
    obtain ⟨front, back, split, few⟩ := mem_rtake due
    have inside := timely b (by rw [split]; simp)
    have secs : s.backups.map Backup.sec ++ [second sys.now] =
        front.map Backup.sec ++ b.sec :: back.map Backup.sec := by
      have mapped := congrArg (List.map Backup.sec) split
      rw [List.map_append, List.map_append, List.map_cons] at mapped
      exact mapped
    have spared : (cleanupLocked sys (s.logger.reopened s.disk.next) d).entries.lookup
        (backupName s.base b.sec) = d.entries.lookup (backupName s.base b.sec) := by
      refine cleanup_spares_last era inside.2 inside.1 (secs ▸ sorted) ?_ ?_
      · rw [List.length_map]
        exact few
      · intro name ino found backup
        rw [← secs]
        exact sound.named_before entries later found backup
    have other := (base_ne_backupName s.base b.sec).symm
    rcases due_after s.logger.keepsBackups due with rfl | old
    · refine ⟨spared.trans ?_, fun x member => ?_⟩
      · rw [entries, if_neg other]
        exact if_pos rfl
      · exact stored (s.disk.below _ _ sound.linked) (sound.held x member)
    · obtain ⟨found, there⟩ := sound.kept b (rtake_pred_subset _ _ old) some_event
      have differs : backupName s.base b.sec ≠ backupName s.base (second sys.now) := by
        intro same
        have early : yearOf b.sec < 10000 := Nat.lt_of_le_of_lt (yearOf_mono inside.2) era
        exact apart b old some_event (backupName_injective early era same)
      refine ⟨spared.trans ?_, fun x member => ?_⟩
      · rw [entries, if_neg other, if_neg differs, found]
      · exact stored (s.disk.below _ _ found) (there x member)

/-! Every call. -/

private theorem writeEvent_frame (sys : System) (l : Logger) (d : Disk) (e : AuditEvent) :
    (writeEvent sys l d e).2.1.path = l.path ∧
      (writeEvent sys l d e).2.1.maxBackups = l.maxBackups ∧
      (writeEvent sys l d e).2.2.entries = d.entries := by
  unfold writeEvent
  split
  · exact ⟨rfl, rfl, rfl⟩
  · split
    · exact ⟨rfl, rfl, rfl⟩
    · split
      · split <;> exact ⟨rfl, rfl, rfl⟩
      · exact ⟨rfl, rfl, rfl⟩

private theorem Sound.step (sound : Sound first s) {act : Act} (granted : Granted s act)
    (apart : Apart s act) : Sound first (s.step act) := by
  cases act with
  | close answer =>
      show Sound first { s with logger := (Close s.logger answer).2 }
      unfold Close
      split
      · exact sound
      · have same : (s.logger.file.close s.logger.path answer).2.ino = s.logger.file.ino := by
          unfold Handle.close
          split <;> rfl
        refine ⟨sound.single, sound.named, sound.sorted, sound.timely, sound.begun, ?_,
          fun ready => absurd ready (by simp), ?_, sound.kept⟩
        · exact sound.linked.trans (congrArg some same.symm)
        · intro x member
          rw [same]
          exact sound.held x member
  | log sys e =>
      obtain ⟨grants, later, era⟩ := granted
      show Sound first (s.log sys e)
      by_cases closed : s.logger.closed = true
      · rw [log_closed closed]
        exact sound.tick later
      · have ready := Bool.eq_false_iff.mpr closed
        by_cases due : s.logger.due = true
        · obtain ⟨d, rotated, succeeds, -⟩ := sound.rotation grants ready
          have rotates : s.rotates = true := by rw [State.rotates, ready, due]; rfl
          have next := sound.rotate grants ready later era (apart rotates)
          rw [log_due ready due succeeds]
          rw [rotated] at next ⊢
          exact next.write grants ready (Nat.le_refl _)
        · rw [log_plain ready (Bool.eq_false_iff.mpr due)]
          exact sound.write grants ready later

private theorem Sound.apart_of_keeps (sound : Sound first s) {act : Act} (granted : Granted s act)
    (keeps : Keeps s act) : Apart s act := by
  cases act with
  | close answer => exact trivial
  | log sys e =>
      intro rotates b due some_event same
      obtain ⟨grants, -, -⟩ := granted
      obtain ⟨ready, full⟩ : s.logger.closed = false ∧ s.logger.due = true := by
        simpa [State.rotates] using rotates
      obtain ⟨d, rotated, succeeds, entries, -⟩ := sound.rotation grants ready
      obtain ⟨x, member⟩ := List.exists_mem_of_ne_nil b.events some_event
      obtain ⟨found, -⟩ := sound.kept b (rtake_pred_subset _ _ due) some_event
      have frame := writeEvent_frame sys (s.rotate sys).logger (s.rotate sys).disk e
      have kept := (show Kept (s.log sys e) from keeps).2 b
      rw [log_due ready full succeeds] at kept
      have positive := s.logger.keepsBackups
      have still : b ∈ ((s.rotate sys).write sys e).backups.rtake
          ((s.rotate sys).write sys e).logger.maxBackups := by
        show b ∈ (s.rotate sys).backups.rtake (writeEvent sys _ _ e).2.1.maxBackups
        rw [frame.2.1, rotated]
        show b ∈ (s.backups ++ [_]).rtake s.logger.maxBackups
        obtain ⟨rest, count⟩ : ∃ rest, s.logger.maxBackups = rest + 1 :=
          ⟨s.logger.maxBackups - 1, by omega⟩
        rw [count, List.rtake_concat_succ]
        rw [count, Nat.add_sub_cancel] at due
        exact List.mem_append_left _ due
      obtain ⟨name, -, there, -⟩ := kept still x member
      have before : d.entries.lookup name = some b.ino := by
        apply cleanup_found
        have unwritten : (s.rotate sys).disk.entries.lookup name = some b.ino := by
          rw [← frame.2.2]
          exact there
        rw [rotated] at unwritten
        exact unwritten
      rw [same] at found
      have current := s.disk.below _ _ found
      rcases found_before entries before with ⟨-, new⟩ | ⟨-, old⟩ | ⟨-, other, there⟩
      · omega
      · rw [old] at found
        exact absurd (sound.single _ _ _ sound.linked found) (base_ne_backupName _ _)
      · exact absurd (sound.single _ _ _ there found) other

private theorem started_sound (start : auditing.init s) : Sound (second s.clock) s := by
  obtain ⟨⟨sys, cfg, d, started⟩, tidy, no_backup, no_event⟩ := start
  obtain ⟨isOpen, working, linked⟩ := NewLogger_ok started
  refine ⟨tidy.single, ?_, ?_, ?_, Nat.le_refl _, linked, fun _ => ⟨isOpen, working⟩, ?_, ?_⟩
  · intro name ino found backup
    obtain ⟨sec, same, past⟩ := tidy.past name ino found backup
    exact ⟨sec, same, past, .inl past⟩
  · rw [no_backup]
    exact List.Pairwise.nil
  · intro b member
    rw [no_backup] at member
    exact absurd member List.not_mem_nil
  · intro e member
    rw [no_event] at member
    exact absurd member List.not_mem_nil
  · intro b due
    rw [no_backup, List.rtake_nil] at due
    exact absurd due List.not_mem_nil

/-- Over every run in which no file operation fails, events are kept until their backup ages
out exactly when no rotation falls into the second of one whose backup is still to be kept. -/
theorem events_kept_iff_apart (s : State) (start : auditing.init s) (acts : List Act)
    (granted : auditing.Along Granted s acts) :
    auditing.Along Keeps s acts ↔ auditing.Along Apart s acts := by
  refine Machine.Along.congr (Sound (second s.clock)) ?_ ?_ (started_sound start) granted
  · intro t act sound granted
    exact ⟨sound.apart_of_keeps granted, fun apart => (sound.step granted apart).all_kept⟩
  · intro t act t' sound granted keeps taken
    obtain rfl := Option.some.inj taken
    exact sound.step granted (sound.apart_of_keeps granted keeps)

/-! Runs from an empty directory. -/

/-- A logger with a limit of 1 MB and two backups, at the epoch, on a log of the given size. -/
def started (size : Nat) : State :=
  let start := launched ⟨none, none, ⟨none, none, true⟩, .ok size⟩ ⟨[], 1, 2⟩
  ⟨start.1, start.2, 0, [], []⟩

private theorem started_init (size : Nat) : auditing.init (started size) := by
  have only {name : Name} {ino : Nat} (found : (started size).disk.entries.lookup name = some ino) :
      name = "audit.log".toList := by
    have entries : (started size).disk.entries = (∅ : FMap Name Nat).insert "audit.log".toList 0 :=
      rfl
    rw [entries, lookup_insert_eq, AList.lookup_empty] at found
    by_contra other
    rw [if_neg other] at found
    exact absurd found (by simp)
  refine ⟨⟨⟨none, none, ⟨none, none, true⟩, .ok size⟩, ⟨[], 1, 2⟩, emptyDisk, rfl⟩, ⟨?_, ?_⟩,
    rfl, rfl⟩
  · intro name name' ino found found'
    rw [only found, only found']
  · intro name ino found backup
    have base : (started size).base = "audit.log".toList := rfl
    rw [only found, ← base, isBackup_self] at backup
    exact absurd backup (by simp)

theorem rotation_then_write_kept :
    auditing.Along Granted (started 1048576) [.log (calm 0) someEvent, .log (calm 9) someEvent] ∧
    auditing.Along Keeps (started 1048576) [.log (calm 0) someEvent, .log (calm 9) someEvent] := by
  have granted : auditing.Along Granted (started 1048576)
      [.log (calm 0) someEvent, .log (calm 9) someEvent] := by
    refine ⟨⟨rfl, Nat.le_refl 0, by decide⟩, fun s taken => ?_⟩
    refine ⟨⟨rfl, ?_, by decide⟩, fun _ _ => trivial⟩
    obtain rfl := Option.some.inj taken
    exact Nat.zero_le 9
  refine ⟨granted, (events_kept_iff_apart _ (started_init _) _ granted).mpr ?_⟩
  refine ⟨fun _ b due => absurd due List.not_mem_nil, fun s taken => ⟨?_, fun _ _ => trivial⟩⟩
  obtain rfl := Option.some.inj taken
  -- The log that the first call rotates out has no event of this run.
  intro _ b due some_event
  obtain rfl : b = (started 1048576).outgoing (calm 0) := List.mem_singleton.mp due
  exact absurd rfl some_event

def filled (n : Nat) (letter : UInt8) : AuditEvent :=
  { someEvent with reason := List.replicate n letter }

private theorem estimate_reason (e : AuditEvent) (reason : Foundation.Utf8.Bytes) :
    { e with reason := reason }.estimate = { e with reason := [] }.estimate + reason.length := by
  simp only [AuditEvent.estimate, AuditEvent.text, List.length_append, List.length_nil]
  omega

private theorem filled_estimate (n : Nat) (letter : UInt8) :
    (filled n letter).estimate = 159 + n := by
  have rest : { someEvent with reason := [] }.estimate = 159 := by decide +kernel
  rw [filled, estimate_reason, rest, List.length_replicate]

private theorem write_filled {n : Nat} (letter : UInt8) (large : 1048576 ≤ n) (sane : n < 2 ^ 62)
    (sound : Sound first s) (ready : s.logger.closed = false) (limit : s.logger.maxSizeMB = 1)
    (empty : s.logger.size = 0) :
    (s.write (calm 0) (filled n letter)).logger.due = true ∧
      (s.write (calm 0) (filled n letter)).logger.closed = false ∧
      (s.write (calm 0) (filled n letter)).logger.maxSizeMB = 1 ∧
      (s.write (calm 0) (filled n letter)).logger.maxBackups = s.logger.maxBackups ∧
      filled n letter ∈ (s.write (calm 0) (filled n letter)).current := by
  obtain ⟨isOpen, working⟩ := sound.ready ready
  have done := @writeEvent_granted (calm 0) s.logger s.disk rfl rfl working isOpen (filled n letter)
  have limited : int64 (((1 : Nat) : Int) * 1024 * 1024) = 1048576 := by decide
  have size : int64 (0 + ((159 + n : Nat) : Int)) = 159 + n := by
    unfold int64
    rw [Int.bmod_eq_of_le] <;> omega
  unfold State.write Logger.due
  rw [done]
  simp only [ready, limit, empty, filled_estimate, limited, size, decide_eq_true_eq]
  refine ⟨by omega, trivial, trivial, trivial, by simp⟩

private theorem rotations_at_once {n : Nat} (large : 1048576 ≤ n) (sane : n < 2 ^ 62)
    (x y z : UInt8) :
    ¬ auditing.Along Keeps (started 0)
      [.log (calm 0) (filled n x), .log (calm 0) (filled n y), .log (calm 0) (filled n z)] := by
  rintro ⟨-, rest⟩
  obtain ⟨-, rest⟩ := rest _ rfl
  obtain ⟨lost, -⟩ := rest _ rfl
  have sound := started_sound (started_init 0)
  obtain ⟨due₁, ready₁, limit₁, count₁, logged₁⟩ := write_filled x large sane sound rfl rfl rfl
  have plain : (started 0).step (.log (calm 0) (filled n x)) =
      (started 0).write (calm 0) (filled n x) := log_plain rfl (by decide)
  rw [plain] at lost
  have sound₁ : Sound 0 ((started 0).write (calm 0) (filled n x)) :=
    sound.write rfl rfl (Nat.le_refl 0)
  have clock₁ : ((started 0).write (calm 0) (filled n x)).clock = 0 := rfl
  have none₁ : ((started 0).write (calm 0) (filled n x)).backups = [] := rfl
  generalize (started 0).write (calm 0) (filled n x) = s₁ at *
  obtain ⟨d, rotated, succeeds, -⟩ := @Sound.rotation 0 s₁ (calm 0) sound₁ rfl ready₁
  have turn : s₁.step (.log (calm 0) (filled n y)) =
      (s₁.rotate (calm 0)).write (calm 0) (filled n y) := log_due ready₁ due₁ succeeds
  have alone : ∀ b ∈ s₁.backups.rtake (s₁.logger.maxBackups - 1), b.events ≠ [] →
      b.sec ≠ second (calm 0).now := by
    intro b due
    rw [none₁, List.rtake_nil] at due
    exact absurd due List.not_mem_nil
  have sound' := sound₁.rotate rfl ready₁ (Nat.le_of_eq clock₁) (by decide) alone
  have logger : (s₁.rotate (calm 0)).logger = s₁.logger.reopened s₁.disk.next := by rw [rotated]
  have ready' : (s₁.rotate (calm 0)).logger.closed = false := by rw [logger]; exact ready₁
  obtain ⟨due₂, ready₂, -, count₂, -⟩ := write_filled y large sane sound' ready'
    (by rw [logger]; exact limit₁) (by rw [logger]; rfl)
  have sound₂ : Sound 0 ((s₁.rotate (calm 0)).write (calm 0) (filled n y)) :=
    sound'.write rfl ready' (Nat.le_refl 0)
  rw [turn] at lost
  have granted : Granted ((s₁.rotate (calm 0)).write (calm 0) (filled n y))
      (.log (calm 0) (filled n z)) := ⟨rfl, Nat.le_refl 0, by decide⟩
  have apart := sound₂.apart_of_keeps granted lost
  have rotates : ((s₁.rotate (calm 0)).write (calm 0) (filled n y)).rotates = true := by
    rw [State.rotates, ready₂, due₂]
    rfl
  refine apart rotates (s₁.outgoing (calm 0)) ?_ (List.ne_nil_of_mem logged₁) rfl
  have two : ((s₁.rotate (calm 0)).write (calm 0) (filled n y)).logger.maxBackups = 2 := by
    rw [count₂, logger]
    exact count₁
  have backups : ((s₁.rotate (calm 0)).write (calm 0) (filled n y)).backups =
      [s₁.outgoing (calm 0)] := by
    show s₁.backups ++ [s₁.outgoing (calm 0)] = _
    rw [none₁, List.nil_append]
  rw [two, backups]
  exact List.mem_singleton_self _

/-- Three events with a reason of 1 MB within one second: after the third the first has no file
any more, one rotation after it was rotated out. -/
theorem same_second_loses_backup :
    let run := [.log (calm 0) (filled 1048576 0x78), .log (calm 0) (filled 1048576 0x79),
      .log (calm 0) (filled 1048576 0x7A)]
    auditing.init (started 0) ∧ auditing.Along Granted (started 0) run ∧
      ¬ auditing.Along Keeps (started 0) run := by
  have granted {t : State} {e : AuditEvent} (clock : t.clock = 0) : Granted t (.log (calm 0) e) :=
    ⟨rfl, Nat.le_of_eq clock, by decide⟩
  refine ⟨started_init 0, ⟨granted rfl, ?_⟩, rotations_at_once (Nat.le_refl _) (by decide) _ _ _⟩
  intro t taken
  obtain rfl := Option.some.inj taken
  refine ⟨granted rfl, fun u taken => ?_⟩
  obtain rfl := Option.some.inj taken
  exact ⟨granted rfl, fun _ _ => trivial⟩

end L3Firewall.Audit.Backups
