/- Hotreload/Record
   source: cmd/server/main.go
   digest: The hot-reload record follows every edit of the file, and when it can move backward. -/

import L3Firewall.Hotreload.Poll
import Mathlib.Logic.Function.Basic

set_option autoImplicit false
set_option relaxedAutoImplicit false

namespace L3Firewall.Hotreload.Record

open Foundation.Runs
open Opa.Evaluator (Text)
open Poll

section Edits

/-- The policy file is replaced, in place or by a rename. The path stays a regular file and
its modification time moves forward. -/
def Replaces (before after : Disk) : Prop :=
  ∃ ino node, after.entry = .file ino ∧ after.inode = Function.update before.inode ino node ∧
    node.regular = true ∧ ∀ old, before.stat = some old → old.modTime < node.modTime

def Forward (s : State) : Act → Prop
  | .replace disk => Replaces s.disk disk
  | _ => True

/-- The file is not older than the time, and has the content if it is as old. -/
def Behind (node : Inode) (t : Int) (content : Text) : Prop :=
  t ≤ node.modTime ∧ (t = node.modTime → content = node.content)

private theorem Behind.self (node : Inode) : Behind node node.modTime node.content :=
  ⟨le_refl _, fun _ => rfl⟩

private theorem Behind.later {node newer : Inode} {t : Int} {content : Text}
    (behind : Behind node t content) (later : node.modTime < newer.modTime) :
    Behind newer t content := by
  have le := behind.1
  exact ⟨by omega, fun same => by omega⟩

/-- What the process holds while it reads, measured on the file at the path. The open file
may have been renamed away, and may be written to as long as it has not. -/
def Held (disk : Disk) (node : Inode) : Control → Prop
  | .opened fd => Behind node (disk.inode fd).modTime (disk.inode fd).content
  | .reading fd t data =>
      Behind node (disk.inode fd).modTime (disk.inode fd).content ∧
        t ≤ (disk.inode fd).modTime ∧ (t = node.modTime → data <+: node.content)
  | .loading data t => Behind node t data
  | _ => True

/-- `node` is the file at the path, and neither the record nor a read in progress is ahead
of it. -/
structure Followed (s : State) (node : Inode) : Prop where
  path : ∃ ino, s.disk.entry = .file ino ∧ s.disk.inode ino = node
  settled : ∀ content, s.loaded = some content → Behind node s.lastMod content
  booted : s.control = .resting → s.loaded ≠ none
  held : Held s.disk node s.control

variable {s s' : State} {node : Inode}

private theorem Followed.stat (followed : Followed s node) : s.disk.stat = some node := by
  obtain ⟨ino, entry, rfl⟩ := followed.path
  unfold Disk.stat
  rw [entry]

private theorem Followed.abandon (followed : Followed s node) : Followed s.abandon node := by
  refine ⟨followed.path, followed.settled, ?_, ?_⟩
  · unfold State.abandon
    dsimp only
    split
    · exact nofun
    · next booted => exact fun _ => booted
  · unfold State.abandon
    dsimp only
    split <;> trivial

private theorem behind_replaced {disk : Disk} {newer : Inode} {fd : Ino} (ino : Ino)
    (behind : Behind node (disk.inode fd).modTime (disk.inode fd).content)
    (later : node.modTime < newer.modTime) :
    let opened := Function.update disk.inode ino newer fd
    Behind newer opened.modTime opened.content ∧ (disk.inode fd).modTime ≤ opened.modTime := by
  by_cases same : fd = ino
  · subst same
    have le := behind.1
    rw [Function.update_self]
    exact ⟨.self newer, by omega⟩
  · rw [Function.update_of_ne same]
    exact ⟨behind.later later, le_refl _⟩

private theorem Followed.replace (followed : Followed s node) {disk : Disk}
    (replaces : Replaces s.disk disk) : ∃ newer, Followed { s with disk := disk } newer := by
  obtain ⟨ino, newer, entry, inode, -, forward⟩ := replaces
  have later := forward node followed.stat
  refine ⟨newer, ⟨ino, entry, by rw [inode, Function.update_self]⟩,
    fun content loaded => (followed.settled content loaded).later later, followed.booted, ?_⟩
  have held := followed.held
  dsimp only
  cases place : s.control with
  | opened fd =>
      rw [place] at held
      simp only [Held, inode]
      exact (behind_replaced ino held later).1
  | reading fd t data =>
      rw [place] at held
      obtain ⟨behind, le, -⟩ := held
      obtain ⟨behind', le'⟩ := behind_replaced ino behind later
      have before := behind.1
      simp only [Held, inode]
      exact ⟨behind', by omega, fun same => by omega⟩
  | loading data t =>
      rw [place] at held
      exact held.later later
  | resting | walking | opening | exited => trivial

private theorem received_prefix {data : Text} (bytes : Nat) (before : data <+: node.content) :
    received node data bytes <+: node.content := by
  obtain ⟨rest, whole⟩ := before
  unfold received
  rw [← whole, List.drop_left]
  exact (List.prefix_append_right_inj data).mpr (List.take_prefix bytes rest)

private theorem Behind.same_content {opened : Inode} {t : Int}
    (behind : Behind node opened.modTime opened.content) (le : t ≤ opened.modTime)
    (same : t = node.modTime) : opened.content = node.content :=
  behind.2 (le_antisymm behind.1 (same ▸ le))

private theorem Followed.proceed (followed : Followed s node) (taken : s.proceed = some s') :
    Followed s' node := by
  have held := followed.held
  obtain rfl | ⟨-, rfl⟩ | ⟨fd, -, entry, rfl⟩ | ⟨fd, place, rfl⟩ |
    ⟨fd, t, data, place, atEnd, rfl⟩ := proceed_cases taken
  · exact followed.abandon
  · exact ⟨followed.path, followed.settled, nofun, trivial⟩
  · refine ⟨followed.path, followed.settled, nofun, ?_⟩
    obtain ⟨ino, entry', rfl⟩ := followed.path
    obtain rfl := Entry.file.inj (entry.symm.trans entry')
    exact .self _
  · rw [place] at held
    exact ⟨followed.path, followed.settled, nofun, held, le_refl _, fun _ => List.nil_prefix⟩
  · rw [place] at held
    obtain ⟨behind, le, starts⟩ := held
    have before := behind.1
    refine ⟨followed.path, followed.settled, nofun, by omega, fun same => ?_⟩
    have agrees := behind.same_content le same
    exact (starts same).eq_of_length_le (agrees ▸ atEnd)

private theorem Followed.read (followed : Followed s node) {bytes : Nat}
    (taken : s.read bytes = some s') : Followed s' node := by
  have held := followed.held
  obtain ⟨fd, t, data, place, rfl⟩ := read_cases taken
  rw [place] at held
  obtain ⟨behind, le, starts⟩ := held
  refine ⟨followed.path, followed.settled, nofun, behind, le, fun same => ?_⟩
  have agrees := behind.same_content le same
  have before : data <+: (s.disk.inode fd).content := agrees ▸ starts same
  have more := received_prefix bytes before
  rwa [agrees] at more

private theorem Followed.load (followed : Followed s node) {accepted : Bool}
    (taken : s.load accepted = some s') : Followed s' node := by
  have held := followed.held
  obtain ⟨data, t, place, ⟨-, rfl⟩ | rfl⟩ := load_cases taken
  · rw [place] at held
    refine ⟨followed.path, fun content loaded => ?_, nofun, trivial⟩
    obtain rfl := Option.some.inj loaded
    exact held
  · exact followed.abandon

private theorem followed_step {a : Act} (followed : Followed s node) (forward : Forward s a)
    (taken : next s a = some s') : ∃ newer, Followed s' newer := by
  cases a with
  | replace disk =>
      obtain rfl := Option.some.inj taken
      exact followed.replace forward
  | stat =>
      obtain ⟨resting, rfl | ⟨rfl, -⟩⟩ := stat_cases taken
      · exact ⟨node, followed.path, followed.settled, nofun, trivial⟩
      · exact ⟨node, followed.path, followed.settled, followed.booted, followed.held⟩
  | proceed => exact ⟨node, followed.proceed taken⟩
  | read bytes => exact ⟨node, followed.read taken⟩
  | fail =>
      obtain ⟨-, rfl⟩ := fail_cases taken
      exact ⟨node, followed.abandon⟩
  | load accepted => exact ⟨node, followed.load taken⟩

private theorem reachable_followed (reached : (watching Booting).Reachable Forward s) :
    ∃ node, Followed s node := by
  refine reached.invariant (fun s => ∃ node, Followed s node) ?_ ?_
  · rintro s ⟨place, unloaded, ino, entry, -⟩
    refine ⟨s.disk.inode ino, ⟨ino, entry, rfl⟩, fun content loaded => ?_, ?_, ?_⟩
    · exact absurd (unloaded.symm.trans loaded) nofun
    · exact fun resting => absurd (place.symm.trans resting) nofun
    · rw [place]
      trivial
  · rintro s a s' - ⟨node, followed⟩ forward taken
    exact followed_step followed forward taken

/-- No edit is lost. From the first read of main on, with the policy file replaced at any
moment by newer ones, a poll that returns without a read finds at the path the content of
the last successful load. -/
theorem unread_poll_up_to_date (s s' : State)
    (reached : (watching Booting).Reachable Forward s) (polled : next s .stat = some s')
    (unread : s'.control = .resting) :
    ∃ node, s.disk.stat = some node ∧ s'.loaded = some node.content := by
  obtain ⟨node, followed⟩ := reachable_followed reached
  refine ⟨node, followed.stat, ?_⟩
  obtain ⟨resting, rfl | ⟨rfl, unchanged⟩⟩ := stat_cases polled
  · exact absurd unread nofun
  · obtain ⟨content, loaded⟩ := Option.ne_none_iff_exists'.mp (followed.booted resting)
    have still : ¬ (s.lastMod = 0 ∨ s.lastMod < node.modTime) :=
      of_decide_eq_false (unchanged node followed.stat)
    obtain ⟨le, same⟩ := followed.settled content loaded
    have content_eq : content = node.content := same (by omega)
    dsimp only
    rw [loaded, content_eq]

/-- Main reads the file just after it was written in place, loads it, and polls. -/
theorem edited_at_boot_up_to_date :
    let before : Disk := ⟨.file 0, fun _ => ⟨true, [1], 10⟩, none⟩
    let after : Disk := ⟨.file 0, Function.update before.inode 0 ⟨true, [2, 3], 20⟩, none⟩
    let edited : State := ⟨after, .opened 0, 0, none, 0⟩
    ∃ s s',
      (watching Booting).run edited [.proceed, .read 1, .read 1, .proceed, .load true] = some s ∧
      next s .stat = some s' ∧ s'.lastMod = 20 ∧
      ∃ node, s.disk.stat = some node ∧ s'.loaded = some node.content := by
  intro before after edited
  refine ⟨_, _, rfl, rfl, rfl, ?_⟩
  have started : (watching Booting).Reachable Forward ⟨before, .walking, 0, none, 0⟩ :=
    .init ⟨rfl, rfl, 0, rfl, rfl⟩
  have opened : (watching Booting).Reachable Forward ⟨before, .opened 0, 0, none, 0⟩ :=
    started.of_run_meets [.proceed, .proceed] (by simp [Forward]) rfl
  have replaces : Replaces before after :=
    ⟨0, ⟨true, [2, 3], 20⟩, rfl, rfl, rfl, fun old found => by cases found; decide⟩
  have written : (watching Booting).Reachable Forward edited :=
    opened.step (a := .replace after) replaces rfl
  have rested := written.of_run_meets [.proceed, .read 1, .read 1, .proceed, .load true]
    (by simp [Forward]) rfl
  exact unread_poll_up_to_date _ _ rested rfl rfl

end Edits

section Backward

variable {s s' : State}

/-- Content that `Load` accepts is not that of a file older than the record. -/
def NotOlder (s : State) (a : Act) : Prop :=
  ∀ data t, s.control = .loading data t → a = .load true → s.lastMod ≤ t

private theorem ahead_step {a : Act} (ahead : s.began ≤ s.lastMod) (notOlder : NotOlder s a)
    (taken : next s a = some s') : s'.began ≤ s'.lastMod := by
  cases a with
  | replace disk =>
      obtain rfl := Option.some.inj taken
      exact ahead
  | stat =>
      obtain ⟨-, rfl | ⟨rfl, -⟩⟩ := stat_cases taken
      · exact le_refl _
      · exact le_refl _
  | proceed =>
      obtain rfl | ⟨-, rfl⟩ | ⟨fd, -, -, rfl⟩ | ⟨fd, -, rfl⟩ | ⟨fd, t, data, -, -, rfl⟩ :=
        proceed_cases taken
      all_goals exact ahead
  | read bytes =>
      obtain ⟨fd, t, data, -, rfl⟩ := read_cases taken
      exact ahead
  | fail =>
      obtain ⟨-, rfl⟩ := fail_cases taken
      exact ahead
  | load accepted =>
      -- Only here the record is set.
      obtain ⟨data, t, loading, ⟨rfl, rfl⟩ | rfl⟩ := load_cases taken
      · exact le_trans ahead (notOlder data t loading rfl)
      · exact ahead

/-- Inside a poll the record is the one it began with. -/
def Begun (s : State) : Prop :=
  s.control = .resting ∨ s.control = .exited ∨ s.began = s.lastMod

private theorem begun_abandon (s : State) : Begun s.abandon := by
  unfold State.abandon Begun
  dsimp only
  split
  · exact .inr (.inl rfl)
  · exact .inl rfl

private theorem Begun.inside (begun : Begun s) (resting : s.control ≠ .resting)
    (exited : s.control ≠ .exited) : s.began = s.lastMod :=
  (begun.resolve_left resting).resolve_left exited

private theorem begun_step {a : Act} (begun : Begun s) (taken : next s a = some s') : Begun s' := by
  cases a with
  | replace disk =>
      obtain rfl := Option.some.inj taken
      exact begun
  | stat =>
      obtain ⟨-, rfl | ⟨rfl, -⟩⟩ := stat_cases taken
      · exact .inr (.inr rfl)
      · exact .inr (.inr rfl)
  | proceed =>
      obtain rfl | ⟨place, rfl⟩ | ⟨fd, place, -, rfl⟩ | ⟨fd, place, rfl⟩ |
          ⟨fd, t, data, place, -, rfl⟩ :=
        proceed_cases taken
      · exact begun_abandon s
      all_goals exact .inr (.inr (begun.inside (by simp [place]) (by simp [place])))
  | read bytes =>
      obtain ⟨fd, t, data, place, rfl⟩ := read_cases taken
      exact .inr (.inr (begun.inside (by simp [place]) (by simp [place])))
  | fail =>
      obtain ⟨-, rfl⟩ := fail_cases taken
      exact begun_abandon s
  | load accepted =>
      obtain ⟨data, t, -, ⟨-, rfl⟩ | rfl⟩ := load_cases taken
      · exact .inl rfl
      · exact begun_abandon s

/-- The record and time. Where no content of a file older than the record is loaded, no poll moves
the record back, whatever replaces the entry at the path and whenever. Where such a file is open
and can be read, that poll moves the record back once its content is loaded. -/
theorem record_forward_unless_older (s : State) :
    ((watching Recorded).Reachable NotOlder s → s.began ≤ s.lastMod) ∧
    ∀ fd, (watching Recorded).Reachable Machine.any s → s.control = .opened fd →
      (s.disk.inode fd).Readable → (s.disk.inode fd).modTime < s.lastMod →
      ∃ s', Continues s s' ∧ s'.control = .resting ∧ s'.lastMod < s'.began := by
  refine ⟨fun reached => ?_, fun fd reached opened readable older => ?_⟩
  · refine reached.invariant (fun s => s.began ≤ s.lastMod) ?_ ?_
    · rintro s ⟨-, -, -, began⟩
      exact le_of_eq began
    · exact fun s a s' _ ahead notOlder taken => ahead_step ahead notOlder taken
  · have begun : Begun s := by
      refine reached.invariant Begun ?_ ?_
      · exact fun s start => .inl start.1
      · exact fun s a s' _ begun _ taken => begun_step begun taken
    have same := begun.inside (by simp [opened]) (by simp [opened])
    refine ⟨{ s with
      control := .resting
      lastMod := (s.disk.inode fd).modTime
      loaded := some (s.disk.inode fd).content }, ?_, rfl, ?_⟩
    · exact (read_alone opened readable).trans (Continues.one (.load true) nofun rfl .refl)
    · dsimp only
      omega

/-- Between the stat and the open, the file that the stat saw is renamed away and an old
regular file takes its place. -/
theorem old_file_swapped_in_regresses :
    let seen : Disk :=
      ⟨.file 0, fun ino => if ino = 0 then ⟨true, [1], 200⟩ else ⟨true, [2], 50⟩, none⟩
    let start : State := ⟨seen, .resting, 100, some [1], 100⟩
    Recorded start ∧
    ∃ s', (watching Recorded).run start [.stat, .proceed, .replace { seen with entry := .file 1 },
        .proceed, .proceed, .read 1, .proceed, .load true] = some s' ∧
      s'.control = .resting ∧ s'.began = 100 ∧ s'.lastMod = 50 := by
  intro seen start
  exact ⟨⟨rfl, nofun, by decide, rfl⟩, _, rfl, rfl, rfl, rfl⟩

end Backward

end L3Firewall.Hotreload.Record
