/- Persist/Atomic
   source: internal/persist/persist.go
   digest: Saving the state call by call, on names and the files behind them. -/

import L3Firewall.Foundation.Inodes
import L3Firewall.Foundation.Runs
import L3Firewall.Persist.State

set_option autoImplicit false
set_option relaxedAutoImplicit false

namespace L3Firewall.Persist.Atomic

open Filepath.Lexical (Pathname)
open Foundation.FiniteMap
open Foundation.Inodes
open Foundation.Runs
open Foundation.Utf8 (Bytes)
open State (EngineState encodeState Files)

/-! Files. -/

/-- A regular file, or something else. What is written to a FIFO or a device is not kept. -/
inductive File
  | regular (bytes : Bytes)
  | special
  deriving DecidableEq

def File.store : File → Bytes → File
  | .regular _, bytes => .regular bytes
  | .special, _ => .special

abbrev FileDisk := Disk Pathname File

def storeFile (d : FileDisk) (ino : Nat) (bytes : Bytes) : FileDisk :=
  d.modify ino fun file => file.store bytes

def openTrunc (d : FileDisk) (name : Pathname) : Nat × FileDisk :=
  let ino := (d.openCreate name (.regular [])).1
  (ino, storeFile (d.openCreate name (.regular [])).2 ino [])

/-! Saving. -/

structure Saving where
  mkdirAll : Option String
  symlink : Option String
  openTmp : Option String
  /-- With the number of bytes that reached the file. -/
  write : Option (Nat × String)
  /-- With what is left in the file. -/
  close : Option (Bytes × String)
  rename : Option String
  remove : Option String

def tmpPath (path : Pathname) : Pathname := path ++ ['.', 't', 'm', 'p']

/-- Writes that were held back get lost when the close fails. -/
def Saving.closeFile (sys : Saving) (d : FileDisk) (ino : Nat) : FileDisk :=
  match sys.close with
  | none => d
  | some (kept, _) => storeFile d ino kept

def Saving.removeFile (sys : Saving) (d : FileDisk) (name : Pathname) : FileDisk :=
  match sys.remove with
  | none => d.remove name
  | some _ => d

/-- The errors of closing and of removing the temporary file are not looked at. -/
def SaveState (sys : Saving) (path : Pathname) (state : Option EngineState) (d : FileDisk) :
    Option String × FileDisk :=
  match state with
  | none => (none, d)
  | some state =>
      if path = [] then (none, d)
      else if ['.', '.'] <:+: path then
        (some ("path traversal rejected: " ++ String.ofList path), d)
      else match sys.mkdirAll with
        | some err => (some ("creating state dir: " ++ err), d)
        | none =>
            match sys.symlink with
            | some err => (some err, d)
            | none =>
                match sys.openTmp with
                | some err => (some ("creating temp state file: " ++ err), d)
                | none =>
                    let f := (openTrunc d (tmpPath path)).1
                    let opened := (openTrunc d (tmpPath path)).2
                    match sys.write with
                    | some (n, err) =>
                        let written := storeFile opened f ((encodeState state).take n)
                        (some ("encoding state: " ++ err),
                          sys.removeFile (sys.closeFile written f) (tmpPath path))
                    | none =>
                        let closed := sys.closeFile (storeFile opened f (encodeState state)) f
                        match sys.rename with
                        | some err =>
                            (some ("renaming state file: " ++ err),
                              sys.removeFile closed (tmpPath path))
                        | none => (none, closed.rename (tmpPath path) path)

/-! What is saved. -/

def Saving.Fails (sys : Saving) : Prop :=
  sys.mkdirAll ≠ none ∨ sys.symlink ≠ none ∨ sys.openTmp ≠ none ∨ sys.write ≠ none ∨
    sys.close ≠ none ∨ sys.rename ≠ none

/-- A failure is reported and leaves the state file as it was. Without an error the new state
is there as a whole. -/
def AllOrNothing (sys : Saving) (path : Pathname) (state : EngineState) (d : FileDisk) : Prop :=
  (sys.Fails → (SaveState sys path (some state) d).1 ≠ none ∧
    (SaveState sys path (some state) d).2.content path = d.content path) ∧
  ((SaveState sys path (some state) d).1 = none →
    (SaveState sys path (some state) d).2.content path = some (.regular (encodeState state)))

def Saving.Opens (sys : Saving) : Prop :=
  sys.mkdirAll = none ∧ sys.symlink = none ∧ sys.openTmp = none

/-- What the write and the close leave in the temporary file, if it is a regular one. -/
def Saving.left (sys : Saving) (state : EngineState) : Bytes :=
  match sys.close, sys.write with
  | some (kept, _), _ => kept
  | none, some (n, _) => (encodeState state).take n
  | none, none => encodeState state

/-- A file that takes the place of the state file is closed without an error and a regular one.
One that does not is not the state file under another name, unless it has the same bytes. -/
def Sound (sys : Saving) (path : Pathname) (state : EngineState) (d : FileDisk) : Prop :=
  sys.Opens →
    (sys.write = none → sys.rename = none →
      sys.close = none ∧ d.content (tmpPath path) ≠ some .special) ∧
    (sys.write ≠ none ∨ sys.rename ≠ none →
      ∀ ino, d.entries.lookup (tmpPath path) = some ino → d.entries.lookup path = some ino →
        (d.file ino).store (sys.left state) = d.file ino)

section Steps

variable {sys : Saving} {path : Pathname} {state : EngineState} {d : FileDisk}

private theorem File.store_store (f : File) (a b : Bytes) : (f.store a).store b = f.store b := by
  cases f <;> rfl

private theorem storeFile_storeFile (d : FileDisk) (ino : Nat) (a b : Bytes) :
    storeFile (storeFile d ino a) ino b = storeFile d ino b := by
  simp only [storeFile, Disk.modify_modify, File.store_store]

private theorem path_ne_tmpPath (path : Pathname) : path ≠ tmpPath path := by
  intro same
  have longer := congrArg List.length same
  simp only [tmpPath, List.length_append, List.length_cons, List.length_nil] at longer
  omega

private theorem left_of_success (wrote : sys.write = none) (closed : sys.close = none) :
    sys.left state = encodeState state := by
  simp only [Saving.left, wrote, closed]

private theorem left_of_failure {failure : Nat × String} (wrote : sys.write = some failure)
    (closed : sys.close = none) : sys.left state = (encodeState state).take failure.1 := by
  simp only [Saving.left, wrote, closed]

def filled (sys : Saving) (path : Pathname) (state : EngineState) (d : FileDisk) : FileDisk :=
  d.through (tmpPath path) (.regular []) fun file => file.store (sys.left state)

private theorem closeFile_opened {wrote : Bytes}
    (whole : sys.close = none → sys.left state = wrote) :
    sys.closeFile (storeFile (openTrunc d (tmpPath path)).2 (openTrunc d (tmpPath path)).1 wrote)
      (openTrunc d (tmpPath path)).1 = filled sys path state d := by
  have written (bytes : Bytes) :
      storeFile (openTrunc d (tmpPath path)).2 (openTrunc d (tmpPath path)).1 bytes =
        d.through (tmpPath path) (.regular []) fun file => file.store bytes :=
    storeFile_storeFile _ _ [] bytes
  unfold Saving.closeFile
  cases closed : sys.close with
  | none => rw [← whole closed, written, filled]
  | some lost =>
      simp only
      rw [storeFile_storeFile, written, filled]
      simp only [Saving.left, closed]

private theorem SaveState_cases (named : path ≠ []) (plain : ¬ ['.', '.'] <:+: path) :
    (¬ sys.Opens ∧ ∃ err, SaveState sys path (some state) d = (some err, d)) ∨
    (sys.Opens ∧ (sys.write ≠ none ∨ sys.rename ≠ none) ∧
      ∃ err, SaveState sys path (some state) d =
        (some err, sys.removeFile (filled sys path state d) (tmpPath path))) ∨
    (sys.Opens ∧ sys.write = none ∧ sys.rename = none ∧
      SaveState sys path (some state) d =
        (none, (filled sys path state d).rename (tmpPath path) path)) := by
  simp only [SaveState, named, plain, if_false]
  cases made : sys.mkdirAll with
  | some err => exact .inl ⟨by simp [Saving.Opens, made], _, rfl⟩
  | none =>
      cases checked : sys.symlink with
      | some err => exact .inl ⟨by simp [Saving.Opens, checked], _, rfl⟩
      | none =>
          cases opened : sys.openTmp with
          | some err => exact .inl ⟨by simp [Saving.Opens, opened], _, rfl⟩
          | none =>
              have opens : sys.Opens := ⟨made, checked, opened⟩
              cases wrote : sys.write with
              | some failure =>
                  refine .inr (.inl ⟨opens, by simp, "encoding state: " ++ failure.2, ?_⟩)
                  simp only [closeFile_opened (left_of_failure wrote)]
              | none =>
                  simp only [closeFile_opened (left_of_success wrote)]
                  cases renamed : sys.rename with
                  | some err => exact .inr (.inl ⟨opens, .inr (by simp), _, rfl⟩)
                  | none => exact .inr (.inr ⟨opens, by simp, by simp, rfl⟩)

/-! What the names lead to. -/

private theorem content_removeFile_ne (sys : Saving) (d : FileDisk) {name other : Pathname}
    (distinct : other ≠ name) : (sys.removeFile d name).content other = d.content other := by
  unfold Saving.removeFile
  split
  · exact d.content_remove_ne distinct
  · rfl

private theorem stored_regular {before : Option File} (ordinary : before ≠ some .special)
    (bytes : Bytes) :
    (before.getD (.regular [])).store bytes = .regular bytes := by
  cases before with
  | none => rfl
  | some file =>
      cases file with
      | regular old => rfl
      | special => exact absurd rfl ordinary

private theorem lookup_filled (sys : Saving) (path : Pathname) (state : EngineState)
    (d : FileDisk) :
    (filled sys path state d).entries.lookup (tmpPath path) =
      some (d.openCreate (tmpPath path) (.regular [])).1 :=
  (Disk.lookup_through (tmpPath path)).trans (if_pos rfl)

private theorem content_of_failure (sound : Sound sys path state d) (opens : sys.Opens)
    (failed : sys.write ≠ none ∨ sys.rename ≠ none) :
    (sys.removeFile (filled sys path state d) (tmpPath path)).content path = d.content path := by
  have distinct := path_ne_tmpPath path
  rw [content_removeFile_ne sys _ distinct, filled, Disk.content_through_ne distinct, Disk.content]
  cases own : d.entries.lookup path with
  | none => rfl
  | some ino =>
      by_cases shared : d.entries.lookup (tmpPath path) = some ino
      · simp [shared, (sound opens).2 failed ino shared own]
      · simp [shared]

private theorem SaveState_outcome (named : path ≠ []) (plain : ¬ ['.', '.'] <:+: path)
    (sound : Sound sys path state d) :
    (¬ sys.Fails ∧ (SaveState sys path (some state) d).1 = none ∧
      (SaveState sys path (some state) d).2.content path = some (.regular (encodeState state))) ∨
    ((SaveState sys path (some state) d).1 ≠ none ∧
      (SaveState sys path (some state) d).2.content path = d.content path) := by
  rcases @SaveState_cases sys path state d named plain with
    ⟨-, err, saved⟩ | ⟨opens, failed, err, saved⟩ | ⟨opens, wrote, renamed, saved⟩
  · rw [saved]
    exact .inr ⟨by simp, rfl⟩
  · rw [saved]
    exact .inr ⟨by simp, content_of_failure sound opens failed⟩
  · obtain ⟨closed, ordinary⟩ := (sound opens).1 wrote renamed
    obtain ⟨made, checked, opened⟩ := opens
    rw [saved, Disk.content_rename (lookup_filled sys path state d), filled,
      Disk.content_through_self, left_of_success wrote closed, stored_regular ordinary]
    refine .inl ⟨?_, rfl, rfl⟩
    simp [Saving.Fails, made, checked, opened, wrote, closed, renamed]

private theorem allOrNothing_of_sound (named : path ≠ []) (plain : ¬ ['.', '.'] <:+: path)
    (sound : Sound sys path state d) : AllOrNothing sys path state d := by
  rcases SaveState_outcome named plain sound with ⟨succeeds, -, whole⟩ | ⟨reported, unchanged⟩
  · exact ⟨fun fails => absurd fails succeeds, fun _ => whole⟩
  · exact ⟨fun _ => ⟨reported, unchanged⟩, fun silent => absurd silent reported⟩

private theorem sound_of_allOrNothing (named : path ≠ []) (plain : ¬ ['.', '.'] <:+: path)
    (saves : AllOrNothing sys path state d) : Sound sys path state d := by
  have distinct := path_ne_tmpPath path
  intro reaches
  obtain ⟨unchanged, whole⟩ := saves
  rcases @SaveState_cases sys path state d named plain with
    ⟨closedOff, -⟩ | ⟨-, failed, err, saved⟩ | ⟨-, wrote, renamed, saved⟩
  · exact absurd reaches closedOff
  · -- The content at the path is that of a shared file after the write.
    have fails : sys.Fails := by
      rcases failed with wrote | renamed
      · exact .inr (.inr (.inr (.inl wrote)))
      · exact .inr (.inr (.inr (.inr (.inr renamed))))
    obtain ⟨-, same⟩ := unchanged fails
    rw [saved, content_removeFile_ne sys _ distinct, filled,
      Disk.content_through_ne distinct] at same
    refine ⟨fun wrote renamed => ?_, fun _ ino shared own => ?_⟩
    · simp [wrote, renamed] at failed
    · simpa [Disk.content, own, shared] using same
  · -- No error is reported, so none may have occurred.
    rw [saved] at unchanged whole
    have closed : sys.close = none := by
      by_contra lost
      exact (unchanged (.inr (.inr (.inr (.inr (.inl lost)))))).1 rfl
    refine ⟨fun _ _ => ⟨closed, fun special => ?_⟩, fun failed => ?_⟩
    · have read := whole rfl
      rw [Disk.content_rename (lookup_filled sys path state d), filled, Disk.content_through_self,
        special] at read
      exact absurd read (by simp [File.store])
    · simp [wrote, renamed] at failed

end Steps

/-- Saving is all or nothing exactly when no error of the close goes unseen, no special file
takes the place of the state file, and no failure comes after the state file itself was
emptied under the temporary name. -/
theorem save_all_or_nothing_iff {sys : Saving} {path : Pathname} {state : EngineState}
    {d : FileDisk} (named : path ≠ []) (plain : ¬ ['.', '.'] <:+: path) :
    AllOrNothing sys path state d ↔ Sound sys path state d :=
  ⟨sound_of_allOrNothing named plain, allOrNothing_of_sound named plain⟩

def earlier : FileDisk := storeFile (openTrunc (.empty .special) ['/', 's']).2 0 [123, 125, 10]

/-- Without failures the new state replaces the earlier one as a whole. -/
theorem next_save_whole :
    let sys : Saving := ⟨none, none, none, none, none, none, none⟩
    let state : EngineState := ⟨AList.insert [115, 121, 110] 1 ∅⟩
    earlier.content ['/', 's'] = some (.regular [123, 125, 10]) ∧
      Sound sys ['/', 's'] state earlier ∧ AllOrNothing sys ['/', 's'] state earlier := by
  intro sys state
  have sound : Sound sys ['/', 's'] state earlier := by
    intro _
    refine ⟨fun _ _ => ⟨rfl, by decide⟩, fun failed => ?_⟩
    simp [sys] at failed
  exact ⟨rfl, sound, (save_all_or_nothing_iff (by decide) (by decide)).mpr sound⟩

/-- The close reports that the bytes could not be kept. The save reports nothing, and the
previous state is gone. -/
theorem failed_close_unreported :
    let sys : Saving :=
      ⟨none, none, none, none, some ([], "no space left on device"), none, none⟩
    let d := earlier
    sys.Fails ∧ d.content ['/', 's'] = some (.regular [123, 125, 10]) ∧
      (SaveState sys ['/', 's'] (some ⟨∅⟩) d).1 = none ∧
      (SaveState sys ['/', 's'] (some ⟨∅⟩) d).2.content ['/', 's'] = some (.regular []) ∧
      encodeState ⟨∅⟩ ≠ [] ∧ ¬ AllOrNothing sys ['/', 's'] ⟨∅⟩ d := by
  intro sys d
  have fails : sys.Fails := .inr (.inr (.inr (.inr (.inl (by simp [sys])))))
  have silent : (SaveState sys ['/', 's'] (some ⟨∅⟩) d).1 = none := rfl
  refine ⟨fails, rfl, silent, rfl, ?_, fun whole => ?_⟩
  · exact List.append_ne_nil_of_right_ne_nil _ (by decide)
  · exact (whole.1 fails).1 silent

/-! One save after the other. -/

/-- The state file of a running process, with what the calls of each save return. -/
def saving (path : Pathname) : Machine FileDisk (Saving × EngineState) where
  init _ := True
  next d save := some (SaveState save.1 path (some save.2) d).2

/-- The state of the last save that reported no error. -/
def lastSaved (path : Pathname) : FileDisk → List (Saving × EngineState) → Option EngineState
  | _, [] => none
  | d, save :: rest =>
      (lastSaved path (SaveState save.1 path (some save.2) d).2 rest).or
        (if (SaveState save.1 path (some save.2) d).1 = none then some save.2 else none)

theorem content_after_saves {path : Pathname} (named : path ≠ []) (plain : ¬ ['.', '.'] <:+: path)
    {d d' : FileDisk} {saves : List (Saving × EngineState)}
    (sound : (saving path).Along (fun d save => Sound save.1 path save.2 d) d saves)
    (ran : (saving path).run d saves = some d') :
    d'.content path = ((lastSaved path d saves).map fun state =>
      File.regular (encodeState state)).or (d.content path) := by
  induction saves generalizing d with
  | nil =>
      obtain rfl := Option.some.inj ran
      rfl
  | cons save rest ih =>
      obtain ⟨now, later⟩ := sound
      rw [ih (later _ rfl) ran, lastSaved]
      cases lastSaved path (SaveState save.1 path (some save.2) d).2 rest with
      | some state => rfl
      | none =>
          rcases SaveState_outcome named plain now with ⟨-, silent, whole⟩ | ⟨reported, unchanged⟩
          · rw [if_pos silent, whole]
            rfl
          · rw [if_neg reported, unchanged]
            rfl

/-! The files of the state model. -/

def File.bytes : File → Option Bytes
  | .regular bytes => some bytes
  | .special => none

def Shows (d : FileDisk) (files : Files) : Prop :=
  ∀ name, files.lookup name = (d.content name).bind File.bytes

def Saving.coarse (sys : Saving) : State.Saving where
  mkdirAll := sys.mkdirAll
  symlink := sys.symlink
  openTmp := sys.openTmp
  write := sys.write.map Prod.snd
  close := sys.close.map fun lost => (lost.1.length, lost.2)
  rename := sys.rename

section Refinement

variable {sys : Saving} {path : Pathname} {d : FileDisk} {files : Files}

/-- A name of a regular file, or of none, without other names. -/
def Apart (d : FileDisk) (name : Pathname) : Prop :=
  d.content name ≠ some .special ∧
    ∀ other ino, other ≠ name → d.entries.lookup other = some ino → d.entries.lookup name ≠ some ino

private theorem content_filled_apart (apart : Apart d (tmpPath path)) (state : EngineState)
    {other : Pathname} (distinct : other ≠ tmpPath path) :
    (filled sys path state d).content other = d.content other := by
  rw [filled, Disk.content_through_ne distinct, Disk.content]
  cases reached : d.entries.lookup other with
  | none => rfl
  | some ino => simp [apart.2 other ino distinct reached]

private theorem shows_removed (shows_ : Shows d files) (apart : Apart d (tmpPath path))
    (state : EngineState) :
    Shows ((filled sys path state d).remove (tmpPath path)) (files.erase (tmpPath path)) := by
  intro name
  by_cases tmp : name = tmpPath path
  · rw [tmp, Disk.content_remove_self, AList.lookup_erase]
    rfl
  · rw [Disk.content_remove_ne _ tmp, content_filled_apart apart state tmp, ← shows_ name,
      lookup_erase_eq, if_neg tmp]

private theorem shows_renamed (shows_ : Shows d files) (apart : Apart d (tmpPath path))
    {state : EngineState} {kept : Bytes} (left : sys.left state = kept) :
    Shows ((filled sys path state d).rename (tmpPath path) path)
      ((files.erase (tmpPath path)).insert path kept) := by
  have distinct := path_ne_tmpPath path
  have found := lookup_filled sys path state d
  have other : (filled sys path state d).entries.lookup path ≠
      some (d.openCreate (tmpPath path) (.regular [])).1 := by
    rw [filled, Disk.lookup_through, if_neg distinct]
    intro reached
    exact apart.2 path _ distinct reached ((Disk.openCreate_shared _ reached).mp rfl)
  intro name
  rw [Disk.content_rename_apart found other, lookup_insert_eq, lookup_erase_eq]
  split
  · rw [filled, Disk.content_through_self, left, stored_regular apart.1]
    rfl
  · split
    · rfl
    · next tmp => rw [content_filled_apart apart state tmp, ← shows_ name]

private theorem left_coarse {state : EngineState} (wrote : sys.write = none)
    (cut : ∀ lost ∈ sys.close, lost.1 <+: encodeState state) :
    sys.left state = sys.coarse.kept state := by
  unfold Saving.left State.Saving.kept Saving.coarse
  cases closed : sys.close with
  | none => rw [wrote]; rfl
  | some lost => exact List.prefix_iff_eq_take.mp (cut lost closed)

/-- With a temporary file of its own that is removed without an error and of which the close
loses no more than the end, saving does what the state model says. -/
theorem SaveState_refines (shows_ : Shows d files) (apart : Apart d (tmpPath path))
    (state : Option EngineState)
    (cut : ∀ s ∈ state, ∀ lost ∈ sys.close, lost.1 <+: encodeState s)
    (removed : sys.remove = none) :
    (SaveState sys path state d).1 = (State.SaveState sys.coarse path state files).1 ∧
      Shows (SaveState sys path state d).2 (State.SaveState sys.coarse path state files).2 := by
  cases state with
  | none => exact ⟨rfl, shows_⟩
  | some state =>
      by_cases empty : path = []
      · simp only [SaveState, State.SaveState, empty, if_true]
        exact ⟨trivial, shows_⟩
      by_cases dots : ['.', '.'] <:+: path
      · simp only [SaveState, State.SaveState, empty, dots, if_false, if_true]
        exact ⟨trivial, shows_⟩
      have unlinked : sys.removeFile (filled sys path state d) (tmpPath path) =
          (filled sys path state d).remove (tmpPath path) := by
        simp only [Saving.removeFile, removed]
      simp only [SaveState, State.SaveState, Saving.coarse, empty, dots, if_false]
      cases sys.mkdirAll with
      | some err => exact ⟨rfl, shows_⟩
      | none =>
          cases sys.symlink with
          | some err => exact ⟨rfl, shows_⟩
          | none =>
              cases sys.openTmp with
              | some err => exact ⟨rfl, shows_⟩
              | none =>
                  cases wrote : sys.write with
                  | some failure =>
                      simp only [closeFile_opened (left_of_failure wrote), Option.map_some]
                      refine ⟨trivial, ?_⟩
                      rw [unlinked]
                      exact shows_removed shows_ apart state
                  | none =>
                      simp only [closeFile_opened (left_of_success wrote), Option.map_none]
                      cases sys.rename with
                      | some err =>
                          refine ⟨rfl, ?_⟩
                          rw [unlinked]
                          exact shows_removed shows_ apart state
                      | none =>
                          have left := left_coarse wrote (cut state rfl)
                          exact ⟨rfl, shows_renamed shows_ apart left⟩

end Refinement

end L3Firewall.Persist.Atomic
