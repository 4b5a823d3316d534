/- Capture/Retention
   source: internal/capture/capture.go
   digest: The newest files of a writer stay as long as cleanup ranks no older names after them. -/

import L3Firewall.Capture.Rotation
import L3Firewall.Foundation.Ranking
import L3Firewall.Foundation.Runs

set_option autoImplicit false
set_option relaxedAutoImplicit false

namespace L3Firewall.Capture.Retention

open Foundation.Runs
open Foundation.FiniteMap (RangeOrder)
open Foundation.Ranking (mem_take_passing)
open Packet.Parser (Bytes)
open Rotation

/-! Writers that follow one another on one directory. -/

/-- The directory, the writer of the current lifetime and the files that this writer has
created, oldest first. -/
structure State where
  dir : Directory
  writer : Writer
  created : List Name

def State.write (s : State) (sys : System) (raw : Bytes) : State :=
  let out := WriteBlock sys s.writer s.dir raw
  { dir := out.2.2
    writer := out.2.1
    created :=
      if s.writer.rotates raw && sys.grants then
        s.created ++ [rotationName out.2.1.curFileN]
      else s.created }

inductive Act
  | restart (sys : Startup) (cfg : Config)
  | write (sys : System) (raw : Bytes)
  | close

def capturing : Machine State Act where
  init s := s.created = [] ∧ ∃ cfg, s.writer = freshWriter cfg
  next s
    | .restart sys cfg =>
        match NewWriter sys cfg with
        | .ok (some w) => some { s with writer := w, created := [] }
        | _ => none
    | .write sys raw => some (s.write sys raw)
    | .close => some { s with writer := Close s.writer }

def Succeeds (s : State) : Act → Prop
  | .write sys raw => s.writer.rotates raw = true → sys.grants = true
  | _ => True

instance (s : State) : ∀ a, Decidable (Succeeds s a)
  | .write sys raw =>
      inferInstanceAs (Decidable (s.writer.rotates raw = true → sys.grants = true))
  | .restart _ _ => .isTrue trivial
  | .close => .isTrue trivial

/-- The last elements of a list, all of them if there are fewer. -/
def newest {α : Type} (count : Nat) (l : List α) : List α := l.drop (l.length - count)

/-- The newest files of the current writer are there, as many as it may keep. -/
def Retained (s : State) : Prop :=
  ∀ f ∈ newest s.writer.maxFiles s.created, f ∈ s.dir.names

/-! What cleanup removes. -/

def scanned (sys : System) (d : Directory) : List Name :=
  ((sys.readdirnames d).getD []).filter isCapture

/-- The number of scanned names that cleanup takes for no older than a file: those that
sort after it, itself, and the current file. -/
def noOlder (current f : Name) (found : List Name) : Nat :=
  found.countP fun g => decide (g = current ∨ f ≤ g)

theorem doomed_eq (current : Name) (budget : Nat) (l : List Name) :
    doomed current budget l = (l.filter (· ≠ current)).take budget := by
  induction l generalizing budget with
  | nil => cases budget <;> rfl
  | cons name rest ih =>
      cases budget with
      | zero => rfl
      | succ budget =>
          by_cases same : name = current
          · rw [doomed, if_pos same, ih, List.filter_cons_of_neg (by simpa using same)]
          · rw [doomed, if_neg same, ih, List.filter_cons_of_pos (by simpa using same),
              List.take_succ_cons]

theorem mem_doomed {current f : Name} {found : List Name} (distinct : found.Nodup) (keep : Nat) :
    f ∈ doomed current (found.length - keep) (found.insertionSort (· ≤ ·)) ↔
      f ≠ current ∧ f ∈ found ∧ keep < noOlder current f found := by
  have taken := mem_take_passing distinct (fun name => decide (name ≠ current)) keep f
  have ranked : noOlder current f found =
      found.countP fun g => decide (decide (g ≠ current) = false ∨ f ≤ g) := by
    apply List.countP_congr
    intro g _
    simp
  rw [doomed_eq, ranked, taken, decide_eq_true_eq]

private theorem mem_remove {sys : System} {d : Directory} {name f : Name} :
    f ∈ (sys.remove d name).names ↔ f ∈ d.names ∧ ¬ (sys.removable f = true ∧ f = name) := by
  unfold System.remove
  split
  · next able =>
    rw [Directory.remove, d.nodup.mem_erase_iff]
    constructor
    · rintro ⟨other, member⟩
      exact ⟨member, fun both => other both.2⟩
    · rintro ⟨member, kept⟩
      exact ⟨fun same => kept ⟨same ▸ able, same⟩, member⟩
  · next unable =>
    constructor
    · intro member
      exact ⟨member, fun ⟨able, same⟩ => unable (same ▸ able)⟩
    · exact And.left

theorem mem_removals {sys : System} {d : Directory} {names : List Name} {f : Name} :
    f ∈ (names.foldl sys.remove d).names ↔
      f ∈ d.names ∧ ¬ (sys.removable f = true ∧ f ∈ names) := by
  induction names generalizing d with
  | nil => simp
  | cons name rest ih =>
      rw [List.foldl_cons, ih, mem_remove, List.mem_cons, and_assoc]
      tauto

theorem scanned_nodup (sys : System) (d : Directory) : (scanned sys d).Nodup := by
  apply List.Nodup.filter
  unfold System.readdirnames
  cases sys.listing with
  | none => exact List.nodup_nil
  | some order =>
      have whole : (order.order d.names).Nodup := (order.perm d.names).nodup_iff.mpr d.nodup
      exact whole.sublist (List.take_sublist _ _)

theorem mem_dropScanned {sys : System} {w : Writer} {d : Directory} {f : Name} :
    f ∈ (dropScanned sys w d).names ↔ f ∈ d.names ∧ ¬ (sys.removable f = true ∧
      f ≠ rotationName w.curFileN ∧ f ∈ scanned sys d ∧
        w.maxFiles < noOlder (rotationName w.curFileN) f (scanned sys d)) := by
  have distinct := scanned_nodup sys d
  unfold dropScanned
  cases listed : sys.readdirnames d with
  | none => simp [scanned, listed]
  | some names =>
      have found : names.filter isCapture = scanned sys d := by rw [scanned, listed]; rfl
      simp only [found]
      split
      · next few =>
        have bound : noOlder (rotationName w.curFileN) f (scanned sys d) ≤ w.maxFiles :=
          le_trans List.countP_le_length few
        constructor
        · exact fun member => ⟨member, fun removed => absurd removed.2.2.2 (by omega)⟩
        · exact And.left
      · rw [mem_removals, mem_doomed distinct]

theorem mem_dropIndexed {sys : System} {w : Writer} {d : Directory} {f : Name} :
    f ∈ (dropIndexed sys w d).names ↔ f ∈ d.names ∧ ¬ (sys.removable f = true ∧
      w.maxFiles < w.curFileN ∧ f = rotationName (w.curFileN - w.maxFiles)) := by
  unfold dropIndexed
  by_cases old : w.maxFiles < w.curFileN
  · have index : ((w.curFileN : Int) - w.maxFiles).toNat = w.curFileN - w.maxFiles := by omega
    rw [if_pos (by omega), mem_remove, index]
    tauto
  · rw [if_neg (by omega)]
    tauto

/-! Names of rotation files. -/

theorem rotationName_injective : Function.Injective rotationName := by
  have value (n : Nat) : Nat.ofDigitChars 10 (padded n) 0 = n := by
    have zeros (k : Nat) (ds : List Char) :
        Nat.ofDigitChars 10 (List.replicate k '0' ++ ds) 0 = Nat.ofDigitChars 10 ds 0 := by
      induction k with
      | zero => rfl
      | succ k ih => exact ih
    rw [padded, zeros, Nat.ofDigitChars_toDigits (by omega) (by omega)]
  intro a b same
  have digits : padded a = padded b := List.append_cancel_left (List.append_cancel_right same)
  rw [← value a, digits, value b]

/-- The files of a writer after so many rotations, oldest first. -/
def ownNames (count : Nat) : List Name := (List.range count).map fun i => rotationName (i + 1)

private theorem ownNames_succ (count : Nat) :
    ownNames (count + 1) = ownNames count ++ [rotationName (count + 1)] := by
  rw [ownNames, List.range_succ, List.map_append]
  rfl

private theorem mem_newest_ownNames {keep count : Nat} {f : Name} :
    f ∈ newest keep (ownNames count) ↔
      ∃ i, 0 < i ∧ i ≤ count ∧ count < i + keep ∧ f = rotationName i := by
  have length : (ownNames count).length = count := by simp [ownNames]
  rw [newest, length, ownNames, ← List.map_drop, List.mem_map]
  constructor
  · rintro ⟨i, member, rfl⟩
    obtain ⟨j, inside, at_j⟩ := List.mem_iff_getElem.mp member
    simp only [List.length_drop, List.length_range] at inside
    simp only [List.getElem_drop, List.getElem_range] at at_j
    exact ⟨i + 1, by omega, by omega, by omega, rfl⟩
  · rintro ⟨i, positive, top, recent, rfl⟩
    refine ⟨i - 1, ?_, by congr 1; omega⟩
    apply List.mem_iff_getElem.mpr
    refine ⟨i - 1 - (count - keep), ?_, ?_⟩
    · simp only [List.length_drop, List.length_range]
      omega
    · simp only [List.getElem_drop, List.getElem_range]
      omega

/-! What a write does. -/

private theorem writePacket_frame (sys : System) (w : Writer) (d : Directory) (raw : Bytes) :
    (writePacket sys w d raw).2.2 = d ∧ (writePacket sys w d raw).2.1.curFileN = w.curFileN ∧
      (writePacket sys w d raw).2.1.maxFiles = w.maxFiles := by
  unfold writePacket
  cases sys.packet with
  | none => exact ⟨rfl, rfl, rfl⟩
  | some err => exact ⟨rfl, rfl, rfl⟩

private theorem WriteBlock_plain {w : Writer} {raw : Bytes} (plain : w.rotates raw = false)
    (sys : System) (d : Directory) :
    (WriteBlock sys w d raw).2.2 = d ∧ (WriteBlock sys w d raw).2.1.curFileN = w.curFileN ∧
      (WriteBlock sys w d raw).2.1.maxFiles = w.maxFiles := by
  simp only [Writer.rotates, Bool.and_eq_false_iff, decide_eq_false_iff_not, Nat.not_le,
    Bool.not_eq_false'] at plain
  unfold WriteBlock
  by_cases large : maxPacketSize < raw.length
  · rw [if_pos large]
    exact ⟨rfl, rfl, rfl⟩
  · rw [if_neg large]
    by_cases shut : w.closed = true
    · rw [if_pos shut]
      exact ⟨rfl, rfl, rfl⟩
    · have idle : w.due = false := by tauto
      rw [if_neg shut, idle, if_neg (by simp)]
      exact writePacket_frame sys w d raw

theorem WriteBlock_rotated {w : Writer} {sys : System} {raw : Bytes}
    (rotates : w.rotates raw = true) (granted : sys.grants = true) (d : Directory) :
    WriteBlock sys w d raw = writePacket sys w.advance.opened
      (cleanupLocked sys w.advance.opened (d.create (rotationName (w.curFileN + 1)))) raw := by
  simp only [Writer.rotates, Bool.and_eq_true, decide_eq_true_eq, Bool.not_eq_true'] at rotates
  obtain ⟨⟨small, live⟩, due⟩ := rotates
  simp only [System.grants, Bool.and_eq_true, Option.isNone_iff_eq_none] at granted
  obtain ⟨⟨noLink, created⟩, headed⟩ := granted
  have rotated : rotateLocked sys w d = (none, w.advance.opened,
      cleanupLocked sys w.advance.opened (d.create (rotationName (w.curFileN + 1)))) := by
    rw [rotateLocked, noLink, created, headed]
    rfl
  rw [WriteBlock, if_neg (by omega), live, if_neg (by simp), if_pos due, rotated]

theorem WriteBlock_rotates {w : Writer} {sys : System} {raw : Bytes}
    (rotates : w.rotates raw = true) (granted : sys.grants = true) (d : Directory) :
    (WriteBlock sys w d raw).2.2 =
        cleanupLocked sys w.advance.opened (d.create (rotationName (w.curFileN + 1))) ∧
      (WriteBlock sys w d raw).2.1.curFileN = w.curFileN + 1 ∧
      (WriteBlock sys w d raw).2.1.maxFiles = w.maxFiles := by
  rw [WriteBlock_rotated rotates granted]
  exact writePacket_frame sys _ _ raw

/-! The newest files over whole runs. -/

def State.upcoming (s : State) : Name := rotationName (s.writer.curFileN + 1)

/-- What that rotation's scan finds, after the removal by index. -/
def State.found (s : State) (sys : System) : List Name :=
  scanned sys (dropIndexed sys s.writer.advance.opened (s.dir.create s.upcoming))

/-- A rotation spares the writer's other newest files: of those that the scan finds and
can remove, none has more than `maxFiles` scanned names ranked no older than it. -/
def Spared (s : State) : Act → Prop
  | .write sys raw =>
      s.writer.rotates raw = true →
        ∀ f ∈ newest s.writer.maxFiles (s.created ++ [s.upcoming]), f ≠ s.upcoming →
          sys.removable f = true → f ∈ s.found sys →
            noOlder s.upcoming f (s.found sys) ≤ s.writer.maxFiles
  | _ => True

instance (s : State) : ∀ a, Decidable (Spared s a)
  | .write sys raw =>
      inferInstanceAs (Decidable (s.writer.rotates raw = true →
        ∀ f ∈ newest s.writer.maxFiles (s.created ++ [s.upcoming]), f ≠ s.upcoming →
          sys.removable f = true → f ∈ s.found sys →
            noOlder s.upcoming f (s.found sys) ≤ s.writer.maxFiles))
  | .restart _ _ => .isTrue trivial
  | .close => .isTrue trivial

/-- The files of a lifetime are numbered from one, and the newest ones are there. -/
structure Numbered (s : State) : Prop where
  created : s.created = ownNames s.writer.curFileN
  retained : Retained s

private theorem fresh_numbered {s : State} {cfg : Config} (writer : s.writer = freshWriter cfg)
    (created : s.created = []) : Numbered s := by
  refine ⟨?_, ?_⟩
  · rw [created, writer]
    rfl
  · rw [Retained, created]
    intro f member
    exact absurd member (by simp [newest])

/-- The current file survives its own rotation's cleanup, and the file that the index names
is not among the newest. What the scan does decides about the others. -/
private theorem rotation_retains_iff {s : State} {sys : System} {raw : Bytes}
    (numbered : Numbered s)
    (rotates : s.writer.rotates raw = true) (granted : sys.grants = true) :
    Retained (s.write sys raw) ↔ Spared s (.write sys raw) := by
  obtain ⟨dir, index, limit⟩ := WriteBlock_rotates rotates granted s.dir
  have created :
      (s.write sys raw).created = s.created ++ [rotationName (s.writer.curFileN + 1)] := by
    simp [State.write, rotates, granted, index]
  have names : s.created ++ [rotationName (s.writer.curFileN + 1)] =
      ownNames (s.writer.curFileN + 1) := by
    rw [numbered.created, ownNames_succ]
  have keeps := s.writer.keepsFiles
  unfold Retained Spared
  rw [created, show (s.write sys raw).writer.maxFiles = s.writer.maxFiles from limit,
    show (s.write sys raw).dir = _ from dir]
  simp only [rotates, forall_true_left, State.found, State.upcoming, names]
  apply forall₂_congr
  intro f member
  obtain ⟨i, positive, top, recent, rfl⟩ := mem_newest_ownNames.mp member
  have there : rotationName i ∈ (s.dir.create (rotationName (s.writer.curFileN + 1))).names := by
    rw [Directory.create, List.mem_insert_iff]
    by_cases last : i = s.writer.curFileN + 1
    · exact .inl (congrArg rotationName last)
    · refine .inr (numbered.retained _ ?_)
      rw [numbered.created]
      exact mem_newest_ownNames.mpr ⟨i, positive, by omega, by omega, rfl⟩
  have indexed : rotationName i ∈ (dropIndexed sys s.writer.advance.opened
      (s.dir.create (rotationName (s.writer.curFileN + 1)))).names := by
    refine mem_dropIndexed.mpr ⟨there, ?_⟩
    rintro ⟨-, deep, same⟩
    have clash := rotationName_injective same
    change s.writer.maxFiles < s.writer.curFileN + 1 at deep
    change i = s.writer.curFileN + 1 - s.writer.maxFiles at clash
    omega
  rw [cleanupLocked, mem_dropScanned]
  simp only [indexed, true_and]
  change ¬ (sys.removable _ = true ∧ _ ≠ rotationName (s.writer.curFileN + 1) ∧ _ ∈ _ ∧
    s.writer.maxFiles < _) ↔ _
  simp only [not_and, Nat.not_lt]
  constructor
  · exact fun kept other able listed => kept able other listed
  · exact fun kept able other listed => kept other able listed

private theorem step_retains_iff {s : State} {a : Act} (numbered : Numbered s)
    (succeeds : Succeeds s a) :
    (∀ s', capturing.next s a = some s' → Retained s') ↔ Spared s a := by
  cases a with
  | restart sys cfg =>
      refine ⟨fun _ => trivial, fun _ s' taken => ?_⟩
      simp only [capturing] at taken
      split at taken
      · obtain rfl := Option.some.inj taken
        intro f member
        exact absurd member (by simp [newest])
      · exact absurd taken (by simp)
  | close =>
      refine ⟨fun _ => trivial, fun _ s' taken => ?_⟩
      obtain rfl := Option.some.inj taken
      exact numbered.retained
  | write sys raw =>
      have single : (∀ s', capturing.next s (.write sys raw) = some s' → Retained s') ↔
          Retained (s.write sys raw) := by
        constructor
        · exact fun all => all _ rfl
        · intro retained s' taken
          obtain rfl := Option.some.inj taken
          exact retained
      rw [single]
      cases rotates : s.writer.rotates raw with
      | true => exact rotation_retains_iff numbered rotates (succeeds rotates)
      | false =>
          obtain ⟨dir, -, limit⟩ := WriteBlock_plain rotates sys s.dir
          have created : (s.write sys raw).created = s.created := by simp [State.write, rotates]
          refine ⟨fun _ => ?_, fun _ => ?_⟩
          · simp [Spared, rotates]
          · unfold Retained
            rw [created, show (s.write sys raw).writer.maxFiles = s.writer.maxFiles from limit,
              show (s.write sys raw).dir = _ from dir]
            exact numbered.retained

private theorem step_numbered {s s' : State} {a : Act} (numbered : Numbered s)
    (succeeds : Succeeds s a)
    (retained : Retained s') (taken : capturing.next s a = some s') : Numbered s' := by
  refine ⟨?_, retained⟩
  cases a with
  | restart sys cfg =>
      simp only [capturing, NewWriter] at taken
      split at taken
      · next w made =>
        obtain rfl := Option.some.inj taken
        split at made
        · exact absurd made (by simp)
        · split at made
          · exact absurd made (by simp)
          · split at made
            · exact absurd made (by simp)
            · obtain rfl := Option.some.inj (Except.ok.inj made)
              rfl
      · exact absurd taken (by simp)
  | close =>
      obtain rfl := Option.some.inj taken
      exact numbered.created
  | write sys raw =>
      obtain rfl := Option.some.inj taken
      cases rotates : s.writer.rotates raw with
      | true =>
          have granted := succeeds rotates
          obtain ⟨-, index, -⟩ := WriteBlock_rotates rotates granted s.dir
          simp [State.write, rotates, granted, index, numbered.created, ownNames_succ]
      | false =>
          obtain ⟨-, index, -⟩ := WriteBlock_plain rotates sys s.dir
          simp [State.write, rotates, index, numbered.created]

/-- Over any run of successful rotations and restarts on a directory of any content, the
newest files of the current writer are there after every step iff every rotation spares
them. -/
theorem newest_kept_iff_spared {s : State} (start : capturing.init s) (acts : List Act)
    (succeeds : capturing.Along Succeeds s acts) :
    capturing.Along (fun s a => ∀ s', capturing.next s a = some s' → Retained s') s acts ↔
      capturing.Along Spared s acts := by
  obtain ⟨created, cfg, writer⟩ := start
  apply Machine.Along.congr Numbered ?_ ?_ (fresh_numbered writer created) succeeds
  · exact fun s a numbered granted => step_retains_iff numbered granted
  · exact fun s a s' numbered granted kept taken =>
      step_numbered numbered granted (kept s' taken) taken

/-- Every call succeeds, and the directory is listed as it is stored. -/
def working : System where
  symlink := none
  create := none
  header := none
  packet := none
  removable := fun _ => true
  listing := some RangeOrder.stored
  readable := none

def pairConfig : Config := ⟨"/var/pcap", 2, 1⟩

def emptyStart : State := ⟨⟨[], List.nodup_nil⟩, freshWriter pairConfig, []⟩

def threeRotations : List Act := List.replicate 3 (.write working [0x45])

theorem lone_writer_keeps_newest :
    capturing.init emptyStart ∧ capturing.Along Succeeds emptyStart threeRotations ∧
      capturing.Along (fun s a => ∀ s', capturing.next s a = some s' → Retained s')
        emptyStart threeRotations := by
  have start : capturing.init emptyStart := ⟨rfl, pairConfig, rfl⟩
  have succeeds : capturing.Along Succeeds emptyStart threeRotations := by decide +kernel
  have spared : capturing.Along Spared emptyStart threeRotations := by decide +kernel
  exact ⟨start, succeeds, (newest_kept_iff_spared start threeRotations succeeds).mpr spared⟩

def restarted : List Act :=
  threeRotations ++ .restart ⟨none, none⟩ pairConfig :: List.replicate 2 (.write working [0x45])

/-- With room for two files, the second writer's first file is gone after its second
rotation: the first writer's third file sorts after both. -/
theorem restart_loses_newest :
    capturing.init emptyStart ∧ capturing.Along Succeeds emptyStart restarted ∧
      ∃ s, capturing.run emptyStart restarted = some s ∧
        s.created = [rotationName 1, rotationName 2] ∧ s.writer.maxFiles = 2 ∧
        s.dir.names = [rotationName 2, rotationName 3] ∧ ¬ Retained s := by
  have succeeds : capturing.Along Succeeds emptyStart restarted := by decide +kernel
  have final : (capturing.run emptyStart restarted).map
      (fun s => (s.created, s.writer.maxFiles, s.dir.names)) =
        some ([rotationName 1, rotationName 2], 2, [rotationName 2, rotationName 3]) := by
    decide +kernel
  obtain ⟨s, ran, fields⟩ := Option.map_eq_some_iff.mp final
  simp only [Prod.mk.injEq] at fields
  obtain ⟨created, limit, names⟩ := fields
  refine ⟨⟨rfl, pairConfig, rfl⟩, succeeds, s, ran, created, limit, names, ?_⟩
  intro retained
  have there := retained (rotationName 1) (by rw [created, limit]; decide)
  rw [names] at there
  exact absurd there (by decide)

end L3Firewall.Capture.Retention
