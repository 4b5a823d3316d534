/- Audit/Recovery
   source: internal/audit/audit.go
   digest: After which failures of a rotation the audit logger can go on. -/

import L3Firewall.Audit.Rotation
import L3Firewall.Foundation.Runs

set_option autoImplicit false
set_option relaxedAutoImplicit false

namespace L3Firewall.Audit.Recovery

open Filepath.Lexical (Base)
open Foundation.FiniteMap
open Foundation.Runs
open Rotation

/-! A logger in use, in a directory where others may change anything. -/

structure State where
  logger : Logger
  disk : Disk

inductive Act
  | log (sys : System) (e : AuditEvent)
  | close (answer : Option String)
  | others (disk : Disk)

def State.log (s : State) (sys : System) (e : AuditEvent) : State :=
  ⟨(Log sys s.logger s.disk e).2.1, (Log sys s.logger s.disk e).2.2⟩

def logging : Machine State Act where
  init s := ∃ sys cfg d, NewLogger sys cfg d = (.ok s.logger, s.disk)
  next s
    | .log sys e => some (s.log sys e)
    | .close answer => some { s with logger := (Close s.logger answer).2 }
    | .others disk => some { s with disk := disk }

variable {sys : System} {l : Logger} {d : Disk} {e : AuditEvent}

/-- The call brings the event into the file at the path of the log. -/
def Written (sys : System) (l : Logger) (d : Disk) (e : AuditEvent) : Prop :=
  (Log sys l d e).1 = none ∧
    ∃ ino, (Log sys l d e).2.2.entries.lookup (Base l.path) = some ino ∧
      e ∈ (Log sys l d e).2.2.data ino

/-- The next call with an event that has a written form succeeds, once nothing fails any more
and there is a log to be rotated. -/
def Recovers (l : Logger) : Prop :=
  ∀ sys d e, sys.grants = true → sys.marshal = none → Base l.path ∈ d.entries → Written sys l d e

/-- Closed by `Close`, or by a rotation that did not come to its end. -/
def Stuck (l : Logger) : Prop := l.closed = true ∨ l.due = true ∧ l.file.isOpen = false

/-! How a rotation fails. -/

private theorem rotateLocked_failed {cause : RotateError} {l' : Logger} {d' : Disk}
    (failed : rotateLocked sys l d = (some cause, l', d')) :
    sys.symlink.isSome = true ∧ l' = l ∨
      sys.symlink = none ∧ l' = { l with file := { l.file with isOpen := false } } := by
  unfold rotateLocked at failed
  cases symlink : sys.symlink with
  | some err =>
      rw [symlink] at failed
      obtain ⟨-, rfl, -⟩ := failed
      exact .inl ⟨rfl, rfl⟩
  | none =>
      rw [symlink] at failed
      have closes : (l.file.close l.path sys.close).2 = { l.file with isOpen := false } := by
        unfold Handle.close
        split
        · rfl
        · next shut => rw [← Bool.eq_false_iff.mpr shut]
      refine .inr ⟨rfl, ?_⟩
      rw [← closes]
      dsimp only at failed
      -- Every later failure returns the logger with the handle that Close left.
      split at failed
      · next out =>
        obtain ⟨-, rfl, -⟩ := failed
        rw [out]
      · next out =>
        rw [out]
        split at failed
        · obtain ⟨-, rfl, -⟩ := failed
          rfl
        · split at failed
          · obtain ⟨-, rfl, -⟩ := failed
            rfl
          · split at failed
            · obtain ⟨-, rfl, -⟩ := failed
              rfl
            · exact absurd failed (by simp)

private theorem rotateLocked_again (passed : sys.symlink = none) (shut : l.file.isOpen = false) :
    rotateLocked sys l d =
      (some (.closing ("close " ++ String.ofList l.path ++ ": file already closed")), l, d) := by
  have again : l.file.close l.path sys.close =
      (some ("close " ++ String.ofList l.path ++ ": file already closed"), l.file) := by
    rw [Handle.close, if_neg (by simp [shut])]
  rw [rotateLocked, passed]
  dsimp only
  rw [again]

private theorem rotateLocked_shut (shut : l.file.isOpen = false) :
    ∃ cause, rotateLocked sys l d = (some cause, l, d) := by
  cases symlink : sys.symlink with
  | some err =>
      rw [rotateLocked, symlink]
      exact ⟨_, rfl⟩
  | none => exact ⟨_, rotateLocked_again symlink shut⟩

private theorem writeEvent_error (cause : RotateError) :
    (writeEvent sys l d e).1 ≠ some (.rotating cause) := by
  unfold writeEvent
  split
  · simp
  · split
    · simp
    · split
      · split <;> simp
      · simp

private theorem log_rotating {cause : RotateError}
    (failed : (Log sys l d e).1 = some (.rotating cause)) :
    l.closed = false ∧ l.due = true ∧
      rotateLocked sys l d = (some cause, (Log sys l d e).2.1, (Log sys l d e).2.2) := by
  unfold Log at *
  by_cases closed : l.closed = true
  · rw [if_pos closed] at failed
    exact absurd failed (by simp)
  · by_cases due : l.due = true
    · simp only [if_neg closed, if_pos due] at failed ⊢
      refine ⟨Bool.eq_false_iff.mpr closed, due, ?_⟩
      rcases out : rotateLocked sys l d with ⟨_ | err, l', d'⟩
      · rw [out] at failed
        exact absurd failed (writeEvent_error cause)
      · rw [out] at failed
        obtain rfl : err = cause := by simpa using failed
        rfl
    · simp only [if_neg closed, if_neg due] at failed
      exact absurd failed (writeEvent_error cause)

/-! Loggers that are stuck, and loggers that are not. -/

private theorem Stuck.log (stuck : Stuck l) (sys : System) (d : Disk) (e : AuditEvent) :
    (Log sys l d e).1 ≠ none ∧ (Log sys l d e).2.1 = l := by
  unfold Log
  by_cases closed : l.closed = true
  · rw [if_pos closed]
    exact ⟨by simp, rfl⟩
  · obtain ⟨due, shut⟩ := stuck.resolve_left closed
    obtain ⟨cause, fails⟩ := @rotateLocked_shut sys l d shut
    rw [if_neg closed, if_pos due, fails]
    exact ⟨by simp, rfl⟩

private theorem Stuck.run {s s' : State} (stuck : Stuck s.logger) (acts : List Act)
    (ran : logging.run s acts = some s') : Stuck s'.logger := by
  induction acts generalizing s with
  | nil =>
      obtain rfl := Option.some.inj ran
      exact stuck
  | cons act rest ih =>
      obtain ⟨t, taken, ran⟩ := Option.bind_eq_some_iff.mp ran
      refine ih ?_ ran
      cases act with
      | log sys e =>
          obtain rfl := Option.some.inj taken
          show Stuck (Log sys s.logger s.disk e).2.1
          rw [(stuck.log sys s.disk e).2]
          exact stuck
      | close answer =>
          obtain rfl := Option.some.inj taken
          show Stuck (Close s.logger answer).2
          unfold Close
          split
          · exact stuck
          · exact .inl rfl
      | others disk =>
          obtain rfl := Option.some.inj taken
          exact stuck

private theorem recovers_of_open (ready : l.closed = false) (due : l.due = true)
    (isOpen : l.file.isOpen = true) : Recovers l := by
  intro sys d e granted encodes present
  obtain ⟨ino, found⟩ := Option.isSome_iff_exists.mp (AList.lookup_isSome.mpr present)
  obtain ⟨d', renamed, -⟩ := rename_spec found (backupName (Base l.path) (second sys.now))
  have logged : Log sys l d e = writeEvent sys (l.reopened (d'.openCreate (Base l.path)).1)
      (cleanupLocked sys (l.reopened (d'.openCreate (Base l.path)).1)
        (d'.openCreate (Base l.path)).2) e := by
    rw [Log, if_neg (by simp [ready]), if_pos due, rotateLocked_granted granted isOpen renamed]
  unfold Written
  rw [logged, writeEvent_granted granted encodes rfl rfl]
  refine ⟨rfl, (d'.openCreate (Base l.path)).1, ?_, ?_⟩
  · exact (cleanupLocked_spares sys _ (isBackup_self _)).trans (openCreate_lookup d' _)
  · simp [Disk.append, Logger.reopened]

private theorem Stuck.not_recovers (stuck : Stuck l) : ¬ Recovers l := by
  intro recovers
  have present : Base l.path ∈ (emptyDisk.openCreate (Base l.path)).2.entries :=
    mem_of_lookup (openCreate_lookup emptyDisk (Base l.path))
  have written := recovers (calm 0) _ ⟨⟨0, 0, ""⟩, "", "", "", "", "", 0, 0, 0, []⟩ rfl rfl present
  exact (stuck.log _ _ _).1 written.1

/-- A rotation that failed can be made up for exactly when the failure was that of the check for
symbolic links and the file is still open. Otherwise no later call succeeds, whatever happens. -/
theorem failed_rotation_recovers_iff (sys : System) (l : Logger) (d : Disk) (e : AuditEvent)
    (cause : RotateError) (failed : (Log sys l d e).1 = some (.rotating cause)) :
    (Recovers (Log sys l d e).2.1 ↔ sys.symlink.isSome = true ∧ l.file.isOpen = true) ∧
    (¬ Recovers (Log sys l d e).2.1 → ∀ acts s,
      logging.run ⟨(Log sys l d e).2.1, (Log sys l d e).2.2⟩ acts = some s →
        ∀ sys' e', (Log sys' s.logger s.disk e').1 ≠ none) := by
  obtain ⟨ready, due, rotation⟩ := log_rotating failed
  have outcome : Recovers (Log sys l d e).2.1 ∧ sys.symlink.isSome = true ∧ l.file.isOpen = true ∨
      Stuck (Log sys l d e).2.1 ∧ ¬ (sys.symlink.isSome = true ∧ l.file.isOpen = true) := by
    rcases rotateLocked_failed rotation with ⟨refused, same⟩ | ⟨passed, shut⟩
    · rw [same]
      by_cases isOpen : l.file.isOpen = true
      · exact .inl ⟨recovers_of_open ready due isOpen, refused, isOpen⟩
      · exact .inr ⟨.inr ⟨due, Bool.eq_false_iff.mpr isOpen⟩, fun both => isOpen both.2⟩
    · rw [shut]
      exact .inr ⟨.inr ⟨due, rfl⟩, fun both => by simp [passed] at both⟩
  rcases outcome with ⟨recovers, both⟩ | ⟨stuck, neither⟩
  · exact ⟨iff_of_true recovers both, fun not => absurd recovers not⟩
  · refine ⟨iff_of_false stuck.not_recovers neither, fun _ acts s ran sys' e' => ?_⟩
    exact ((stuck.run (s := ⟨_, _⟩) acts ran).log sys' s.disk e').1

def startup : Startup := ⟨none, none, ⟨none, none, true⟩, .ok (100 * 1024 * 1024)⟩

/-- The logger after that start, with all defaults. -/
def grown : State :=
  let start := launched startup ⟨[], 0, 0⟩
  ⟨start.1, start.2⟩

def planted : System :=
  { calm 0 with symlink := some "path component is a symlink: /tmp/l3-firewall" }

theorem refused_check_recovers :
    (Log planted grown.logger grown.disk someEvent).1 =
        some (.rotating (.directory "path component is a symlink: /tmp/l3-firewall")) ∧
      Recovers (Log planted grown.logger grown.disk someEvent).2.1 :=
  ⟨by decide, (failed_rotation_recovers_iff planted grown.logger grown.disk someEvent
    (.directory "path component is a symlink: /tmp/l3-firewall") (by decide)).1.mpr
      ⟨by decide, by decide⟩⟩

def fullDisk : System := { calm 0 with rename := some "no space left on device" }

/-- After one failed rename the next call finds the file closed, and so does every other. -/
theorem failed_rename_is_final :
    logging.init grown ∧
    ((Log fullDisk grown.logger grown.disk someEvent).1.map LogError.text =
      some ("rotating audit log: renaming audit log: rename /tmp/l3-firewall/audit.log " ++
        "/tmp/l3-firewall/audit.log.19700101T000000Z: no space left on device")) ∧
    ∀ sys, sys.grants = true →
      (Log sys (Log fullDisk grown.logger grown.disk someEvent).2.1 grown.disk someEvent).1.map
          LogError.text =
        some ("rotating audit log: closing current audit log: " ++
          "close /tmp/l3-firewall/audit.log: file already closed") := by
  refine ⟨⟨startup, ⟨[], 0, 0⟩, emptyDisk, rfl⟩, by decide, fun sys granted => ?_⟩
  have passed : sys.symlink = none := by
    simp only [System.grants, Bool.and_eq_true, Option.isNone_iff_eq_none] at granted
    exact granted.1.1.1.1.1.1
  rw [Log, if_neg (by decide), if_pos (by decide), rotateLocked_again passed (by decide)]
  dsimp only
  decide

end L3Firewall.Audit.Recovery
