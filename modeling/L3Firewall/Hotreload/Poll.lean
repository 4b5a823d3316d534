/- Hotreload/Poll
   source: cmd/server/main.go
   digest: The policy file is polled, in one go and in steps between which the disk may change. -/

import L3Firewall.Foundation.Runs
import L3Firewall.Opa.Evaluator
import Mathlib.Logic.Relation

set_option autoImplicit false
set_option relaxedAutoImplicit false

namespace L3Firewall.Hotreload.Poll

open Foundation.Runs
open Opa.Evaluator (Text)

universe u

def maxPolicyFileSize : Nat := 10 * 1024 * 1024

abbrev Ino := Nat

/-- Modification times are in nanoseconds since Go's zero time. -/
structure Inode where
  regular : Bool
  content : Text
  modTime : Int
  deriving DecidableEq

/-- What stands at the policy path. A link comes with the file it leads to. -/
inductive Entry
  | missing
  | file (ino : Ino)
  | symlink (target : Option Ino)
  deriving DecidableEq

/-- `refusal` is what RejectSymlinkComponents says of the directories above the path. -/
structure Disk where
  entry : Entry
  inode : Ino → Inode
  refusal : Option String

/-- os.Stat follows a link. -/
def Disk.stat (disk : Disk) : Option Inode :=
  match disk.entry with
  | .missing => none
  | .file ino => some (disk.inode ino)
  | .symlink target => target.map disk.inode

/-- The open does not (O_NOFOLLOW). -/
def Disk.openFile (disk : Disk) : Except String Ino :=
  match disk.entry with
  | .missing => .error "no such file or directory"
  | .file ino => .ok ino
  | .symlink _ => .error "too many levels of symbolic links"

section OneGo

structure Faults where
  stat : Option String
  read : Option String

def Inode.Readable (node : Inode) : Prop :=
  node.regular = true ∧ node.content.length ≤ maxPolicyFileSize

instance (node : Inode) : Decidable node.Readable :=
  inferInstanceAs (Decidable (_ ∧ _))

def Inode.check (node : Inode) (path : String) : Option String :=
  if node.regular = false then some ("policy path is not a regular file: " ++ path)
  else if maxPolicyFileSize < node.content.length then
    some ("policy file too large: " ++ toString node.content.length ++ " bytes (max " ++
      toString maxPolicyFileSize ++ ")")
  else none

private theorem check_eq_none {node : Inode} {path : String} :
    node.check path = none ↔ node.Readable := by
  unfold Inode.check Inode.Readable
  split
  · next special => simp [special]
  · next regular =>
    split
    · next large => simp only [reduceCtorEq, false_iff]; omega
    · next fits => simpa using ⟨by simpa using regular, by omega⟩

def readPolicyFile (path : String) (faults : Faults) (disk : Disk) : Except String (Text × Int) :=
  match disk.refusal with
  | some err => .error err
  | none =>
      match disk.openFile with
      | .error err => .error ("opening policy file: open " ++ path ++ ": " ++ err)
      | .ok fd =>
          match faults.stat, (disk.inode fd).check path, faults.read with
          | some err, _, _ => .error ("stating policy file: " ++ err)
          | none, some err, _ => .error err
          | none, none, some err => .error ("reading policy file: " ++ err)
          | none, none, none =>
              let data := (disk.inode fd).content.take (maxPolicyFileSize + 1)
              if maxPolicyFileSize < data.length then
                .error ("policy file grew beyond " ++ toString maxPolicyFileSize ++
                  " bytes while reading")
              else .ok (data, (disk.inode fd).modTime)

/-- Is the file to be read? A zero record counts as changed. -/
def changed (lastMod modTime : Int) : Bool :=
  decide (lastMod = 0 ∨ lastMod < modTime)

/-- What a poll leaves: the pause until the next one in seconds, the record, and the target
of the reload. -/
structure Polled (ε : Type u) where
  pause : Nat
  lastMod : Int
  eval : ε

def pollPolicyFile {ε : Type u} (load : ε → Text → Option String × ε) (path : String)
    (faults : Faults) (disk : Disk) (eval : ε) (lastMod : Int) : Polled ε :=
  match disk.stat with
  | none => ⟨30, lastMod, eval⟩
  | some node =>
      if changed lastMod node.modTime then
        match readPolicyFile path faults disk with
        | .error _ => ⟨30, lastMod, eval⟩
        | .ok (data, verifiedMod) =>
            match load eval data with
            | (some _, eval) => ⟨30, lastMod, eval⟩
            | (none, eval) => ⟨5, verifiedMod, eval⟩
      else ⟨5, lastMod, eval⟩

theorem readPolicyFile_ok {path : String} {faults : Faults} {disk : Disk} {data : Text}
    {modTime : Int} (read : readPolicyFile path faults disk = .ok (data, modTime)) :
    disk.refusal = none ∧ ∃ ino, disk.entry = .file ino ∧ (disk.inode ino).Readable ∧
      data = (disk.inode ino).content ∧ modTime = (disk.inode ino).modTime := by
  unfold readPolicyFile at read
  split at read
  · exact absurd read nofun
  · next clear =>
    refine ⟨clear, ?_⟩
    split at read
    · exact absurd read nofun
    · next fd opened =>
      have entry : disk.entry = .file fd := by
        unfold Disk.openFile at opened
        split at opened <;> simp_all
      split at read
      · exact absurd read nofun
      · exact absurd read nofun
      · exact absurd read nofun
      · next checked _ =>
        obtain ⟨regular, fits⟩ := check_eq_none.mp checked
        have whole : (disk.inode fd).content.take (maxPolicyFileSize + 1) =
            (disk.inode fd).content := List.take_of_length_le (by omega)
        rw [whole, if_neg (by omega)] at read
        obtain ⟨rfl, rfl⟩ := Prod.mk.inj (Except.ok.inj read)
        exact ⟨fd, entry, ⟨regular, fits⟩, rfl, rfl⟩

end OneGo

section Steps

/-- Where the process stands between two system calls. Reading holds the modification time
of the fstat and the bytes so far. Main exits when its own read or load fails. -/
inductive Control
  | resting
  | walking
  | opening
  | opened (fd : Ino)
  | reading (fd : Ino) (verifiedMod : Int) (data : Text)
  | loading (data : Text) (verifiedMod : Int)
  | exited
  deriving DecidableEq

/-- `loaded` is the content of the last successful load, `none` until main has made the
evaluator. `began` is the record that the latest poll started from. -/
structure State where
  disk : Disk
  control : Control
  lastMod : Int
  loaded : Option Text
  began : Int

/-- Others replace what is on the disk; the process polls, takes its next system call, reads
some bytes, fails in a call, or hands the content to the evaluator. -/
inductive Act
  | replace (disk : Disk)
  | stat
  | proceed
  | read (bytes : Nat)
  | fail
  | load (accepted : Bool)

/-- An error ends the poll, or main while it is still starting. -/
def State.abandon (s : State) : State :=
  { s with control := if s.loaded = none then .exited else .resting }

/-- The reader has met the end of the file or its own limit. -/
def drained (node : Inode) (data : Text) : Prop :=
  node.content.length ≤ data.length ∨ maxPolicyFileSize < data.length

instance (node : Inode) (data : Text) : Decidable (drained node data) :=
  inferInstanceAs (Decidable (_ ∨ _))

def received (node : Inode) (data : Text) (bytes : Nat) : Text :=
  data ++ (node.content.drop data.length).take bytes

def State.stat (s : State) : Option State :=
  match s.control with
  | .resting =>
      match s.disk.stat with
      | none => some { s with began := s.lastMod }
      | some node =>
          if changed s.lastMod node.modTime then
            some { s with control := .walking, began := s.lastMod }
          else some { s with began := s.lastMod }
  | _ => none

def State.proceed (s : State) : Option State :=
  match s.control with
  | .walking =>
      match s.disk.refusal with
      | some _ => some s.abandon
      | none => some { s with control := .opening }
  | .opening =>
      match s.disk.openFile with
      | .error _ => some s.abandon
      | .ok fd => some { s with control := .opened fd }
  | .opened fd =>
      if (s.disk.inode fd).Readable then
        some { s with control := .reading fd (s.disk.inode fd).modTime [] }
      else some s.abandon
  | .reading fd verifiedMod data =>
      if drained (s.disk.inode fd) data then
        if maxPolicyFileSize < data.length then some s.abandon
        else some { s with control := .loading data verifiedMod }
      else none
  | _ => none

/-- A read returns at least one byte before the end of the file, and no more than the limit
of one byte over the maximum leaves. -/
def State.read (s : State) (bytes : Nat) : Option State :=
  match s.control with
  | .reading fd verifiedMod data =>
      if 0 < bytes ∧ data.length + bytes ≤ maxPolicyFileSize + 1 ∧
          ¬ drained (s.disk.inode fd) data then
        some { s with
          control := .reading fd verifiedMod (received (s.disk.inode fd) data bytes) }
      else none
  | _ => none

def State.fail (s : State) : Option State :=
  match s.control with
  | .walking | .opening | .opened _ | .reading _ _ _ => some s.abandon
  | _ => none

def State.load (s : State) (accepted : Bool) : Option State :=
  match s.control with
  | .loading data verifiedMod =>
      if accepted then
        some { s with control := .resting, lastMod := verifiedMod, loaded := some data }
      else some s.abandon
  | _ => none

def next (s : State) : Act → Option State
  | .replace disk => some { s with disk := disk }
  | .stat => s.stat
  | .proceed => s.proceed
  | .read bytes => s.read bytes
  | .fail => s.fail
  | .load accepted => s.load accepted

/-- The process and those who change its disk, from a set of states on. -/
def watching (start : State → Prop) : Machine State Act := ⟨start, next⟩

/-- Main is about to read the policy for the first time, and the path is a regular file. -/
def Booting (s : State) : Prop :=
  s.control = .walking ∧ s.loaded = none ∧
    ∃ ino, s.disk.entry = .file ino ∧ (s.disk.inode ino).regular = true

/-- A policy is loaded, and the record is not zero. -/
def Recorded (s : State) : Prop :=
  s.control = .resting ∧ s.loaded ≠ none ∧ s.lastMod ≠ 0 ∧ s.began = s.lastMod

end Steps

section Inversion

variable {s s' : State}

theorem stat_cases (taken : s.stat = some s') :
    s.control = .resting ∧
      (s' = { s with control := .walking, began := s.lastMod } ∨
        s' = { s with began := s.lastMod } ∧
          ∀ node, s.disk.stat = some node → changed s.lastMod node.modTime = false) := by
  unfold State.stat at taken
  split at taken
  · next resting =>
    refine ⟨resting, ?_⟩
    split at taken
    · next missing =>
      refine .inr ⟨(Option.some.inj taken).symm, fun node found => ?_⟩
      exact absurd (missing.symm.trans found) nofun
    · next node found =>
      split at taken
      · exact .inl (Option.some.inj taken).symm
      · next unchanged =>
        refine .inr ⟨(Option.some.inj taken).symm, fun node' found' => ?_⟩
        obtain rfl := Option.some.inj (found.symm.trans found')
        simpa using unchanged
  · exact absurd taken nofun

theorem proceed_cases (taken : s.proceed = some s') :
    s' = s.abandon ∨
    (s.control = .walking ∧ s' = { s with control := .opening }) ∨
    (∃ fd, s.control = .opening ∧ s.disk.entry = .file fd ∧
      s' = { s with control := .opened fd }) ∨
    (∃ fd, s.control = .opened fd ∧
      s' = { s with control := .reading fd (s.disk.inode fd).modTime [] }) ∨
    (∃ fd verifiedMod data, s.control = .reading fd verifiedMod data ∧
      (s.disk.inode fd).content.length ≤ data.length ∧
      s' = { s with control := .loading data verifiedMod }) := by
  unfold State.proceed at taken
  split at taken
  · next walking =>
    split at taken
    · exact .inl (Option.some.inj taken).symm
    · exact .inr (.inl ⟨walking, (Option.some.inj taken).symm⟩)
  · next opening =>
    split at taken
    · exact .inl (Option.some.inj taken).symm
    · next fd found =>
      have entry : s.disk.entry = .file fd := by
        unfold Disk.openFile at found
        split at found <;> simp_all
      exact .inr (.inr (.inl ⟨fd, opening, entry, (Option.some.inj taken).symm⟩))
  · next fd opened =>
    split at taken
    · exact .inr (.inr (.inr (.inl ⟨fd, opened, (Option.some.inj taken).symm⟩)))
    · exact .inl (Option.some.inj taken).symm
  · next fd verifiedMod data reading =>
    split at taken
    · next atEnd =>
      split at taken
      · exact .inl (Option.some.inj taken).symm
      · next fits =>
        exact .inr (.inr (.inr (.inr ⟨fd, verifiedMod, data, reading,
          atEnd.resolve_right fits, (Option.some.inj taken).symm⟩)))
    · exact absurd taken nofun
  · exact absurd taken nofun

theorem read_cases {bytes : Nat} (taken : s.read bytes = some s') :
    ∃ fd verifiedMod data, s.control = .reading fd verifiedMod data ∧
      s' = { s with
        control := .reading fd verifiedMod (received (s.disk.inode fd) data bytes) } := by
  unfold State.read at taken
  split at taken
  · next fd verifiedMod data reading =>
    split at taken
    · exact ⟨fd, verifiedMod, data, reading, (Option.some.inj taken).symm⟩
    · exact absurd taken nofun
  · exact absurd taken nofun

theorem fail_cases (taken : s.fail = some s') : s.control ≠ .resting ∧ s' = s.abandon := by
  unfold State.fail at taken
  split at taken
  case h_5 => exact absurd taken nofun
  all_goals
    next place =>
    exact ⟨by simp [place], (Option.some.inj taken).symm⟩

theorem load_cases {accepted : Bool} (taken : s.load accepted = some s') :
    ∃ data verifiedMod, s.control = .loading data verifiedMod ∧
      (accepted = true ∧
          s' = { s with control := .resting, lastMod := verifiedMod, loaded := some data } ∨
        s' = s.abandon) := by
  unfold State.load at taken
  split at taken
  · next data verifiedMod loading =>
    refine ⟨data, verifiedMod, loading, ?_⟩
    split at taken
    · next accepts => exact .inl ⟨accepts, (Option.some.inj taken).symm⟩
    · exact .inr (Option.some.inj taken).symm
  · exact absurd taken nofun

end Inversion

section Alone

variable {s s' : State}

/-- Steps of the process with the disk left as it is. -/
def Continues : State → State → Prop :=
  Relation.ReflTransGen fun s s' => ∃ a, (∀ disk, a ≠ .replace disk) ∧ next s a = some s'

theorem Continues.one {t : State} (a : Act) (own : ∀ disk, a ≠ .replace disk)
    (taken : next s a = some t) (more : Continues t s') : Continues s s' :=
  .head ⟨a, own, taken⟩ more

theorem read_alone {fd : Ino} (opened : s.control = .opened fd)
    (readable : (s.disk.inode fd).Readable) :
    Continues s { s with
      control := .loading (s.disk.inode fd).content (s.disk.inode fd).modTime } := by
  have fits := readable.2
  have statted : next s .proceed =
      some { s with control := .reading fd (s.disk.inode fd).modTime [] } := by
    simp only [next, State.proceed, opened]
    rw [if_pos readable]
  have finished (t : State)
      (reading : t = { s with
        control := .reading fd (s.disk.inode fd).modTime (s.disk.inode fd).content }) :
      next t .proceed = some { s with
        control := .loading (s.disk.inode fd).content (s.disk.inode fd).modTime } := by
    subst reading
    simp only [next, State.proceed]
    rw [if_pos (.inl (Nat.le_refl _)), if_neg (by omega)]
  refine .one .proceed nofun statted ?_
  by_cases empty : (s.disk.inode fd).content = []
  · exact .one .proceed nofun (finished _ (by rw [empty])) .refl
  · have more : 0 < (s.disk.inode fd).content.length := List.length_pos_iff.mpr empty
    have undrained : ¬ drained (s.disk.inode fd) [] := by
      simp only [drained, List.length_nil]
      omega
    have taken : next { s with control := .reading fd (s.disk.inode fd).modTime [] }
        (.read (s.disk.inode fd).content.length) = some { s with
          control := .reading fd (s.disk.inode fd).modTime (s.disk.inode fd).content } := by
      simp only [next, State.read]
      rw [if_pos ⟨more, by simp only [List.length_nil]; omega, undrained⟩]
      simp [received]
    exact .one (.read _) nofun taken (.one .proceed nofun (finished _ rfl) .refl)

private theorem abandon_resting (booted : s.loaded ≠ none) :
    s.abandon = { s with control := .resting } := by
  unfold State.abandon
  rw [if_neg booted]

def accepting (accepted : Text → Bool) (loaded : Option Text) (data : Text) :
    Option String × Option Text :=
  if accepted data then (none, some data) else (some "rejected", loaded)

theorem poll_alone (accepted : Text → Bool) (path : String) (faults : Faults)
    (resting : s.control = .resting) (booted : s.loaded ≠ none) :
    let polled := pollPolicyFile (accepting accepted) path faults s.disk s.loaded s.lastMod
    Continues s ⟨s.disk, .resting, polled.lastMod, polled.eval, s.lastMod⟩ := by
  obtain ⟨disk, control, lastMod, loaded, began⟩ := s
  obtain rfl : control = .resting := resting
  dsimp only at booted ⊢
  have abandoned (t : State) (still : t.loaded = loaded) :
      t.abandon = { t with control := .resting } := abandon_resting (still ▸ booted)
  unfold pollPolicyFile
  cases found : disk.stat with
  | none => exact .one .stat nofun (by simp only [next, State.stat, found]) .refl
  | some node =>
      dsimp only
      split
      · next seen =>
        have begun : next ⟨disk, .resting, lastMod, loaded, began⟩ .stat =
            some ⟨disk, .walking, lastMod, loaded, lastMod⟩ := by
          simp only [next, State.stat, found, seen, if_true]
        refine .one .stat nofun begun ?_
        cases read : readPolicyFile path faults disk with
        | error err =>
            refine .one .fail nofun ?_ .refl
            simp only [next, State.fail]
            rw [abandoned _ rfl]
        | ok result =>
            obtain ⟨data, verifiedMod⟩ := result
            obtain ⟨clear, ino, entry, readable, rfl, rfl⟩ := readPolicyFile_ok read
            have walked : next ⟨disk, .walking, lastMod, loaded, lastMod⟩ .proceed =
                some ⟨disk, .opening, lastMod, loaded, lastMod⟩ := by
              simp only [next, State.proceed, clear]
            have opened : next ⟨disk, .opening, lastMod, loaded, lastMod⟩ .proceed =
                some ⟨disk, .opened ino, lastMod, loaded, lastMod⟩ := by
              simp only [next, State.proceed, Disk.openFile, entry]
            refine .one .proceed nofun walked (.one .proceed nofun opened ?_)
            refine (read_alone rfl readable).trans (Continues.one
              (.load (accepted (disk.inode ino).content)) nofun ?_ .refl)
            simp only [next, State.load, accepting]
            split
            · rfl
            · rw [abandoned _ rfl]
      · next unseen =>
        refine .one .stat nofun ?_ .refl
        simp only [next, State.stat, found]
        rw [if_neg unseen]

end Alone

end L3Firewall.Hotreload.Poll
