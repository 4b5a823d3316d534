/- Capture/FileLimit
   source: internal/capture/capture.go
   digest: A rotation leaves at most the configured number of capture files, its own among them. -/

import L3Firewall.Capture.Retention
import Mathlib.Data.Finset.Card

set_option autoImplicit false
set_option relaxedAutoImplicit false

namespace L3Firewall.Capture.FileLimit

open Foundation.Runs
open Foundation.FiniteMap (RangeOrder)
open Packet.Parser (Bytes)
open Rotation
open Retention (scanned scanned_nodup doomed_eq mem_doomed mem_removals mem_dropScanned
  mem_dropIndexed rotationName_injective WriteBlock_rotated WriteBlock_rotates working)

/-! A writer on a directory that others change at will. -/

structure State where
  dir : Directory
  writer : Writer

inductive Event
  | write (sys : System) (raw : Bytes)
  | close
  /-- Others create and delete entries. -/
  | replace (dir : Directory)

def State.write (s : State) (sys : System) (raw : Bytes) : State :=
  let out := WriteBlock sys s.writer s.dir raw
  ⟨out.2.2, out.2.1⟩

def sharing (cfg : Config) : Machine State Event where
  init s := s.writer = freshWriter cfg
  next s
    | .write sys raw => some (s.write sys raw)
    | .close => some { s with writer := Close s.writer }
    | .replace dir => some { s with dir := dir }

def captures (d : Directory) : List Name := d.names.filter isCapture

/-- The directory as the scan of a rotation lists it. -/
def State.listed (s : State) (sys : System) : Directory :=
  dropIndexed sys s.writer.advance.opened
    (s.dir.create (rotationName (s.writer.curFileN + 1)))

/-- The scan of a rotation sees the whole directory, and what it removes is gone. -/
structure Thorough (s : State) (sys : System) : Prop where
  opens : sys.listing.isSome = true
  reads : sys.readable = none
  small : (s.listed sys).names.length ≤ maxCleanupEntries
  removes : ∀ name, sys.removable name = true

/-! What a write leaves of the writer. -/

inductive Wrote (raw : Bytes) (w : Writer) : Writer → Prop
  | refused : Wrote raw w w
  | unopened : Wrote raw w w.advance
  | unwritten : Wrote raw w w.advance.opened
  | appended (idle : w.due = false) : Wrote raw w (w.append raw)
  | rotated : Wrote raw w (w.advance.opened.append raw)

private theorem writePacket_writer (sys : System) (w : Writer) (d : Directory) (raw : Bytes) :
    (writePacket sys w d raw).2.1 = w ∨ (writePacket sys w d raw).2.1 = w.append raw := by
  unfold writePacket
  cases sys.packet with
  | some err => exact Or.inl rfl
  | none => exact Or.inr rfl

private theorem rotateLocked_writer {sys : System} {w w' : Writer} {d d' : Directory}
    {out : Option WriteError} (rotated : rotateLocked sys w d = (out, w', d')) :
    (out ≠ none ∧ (w' = w ∨ w' = w.advance)) ∨ (out = none ∧ w' = w.advance.opened) := by
  unfold rotateLocked at rotated
  cases linked : sys.symlink with
  | some err =>
      simp only [linked, Prod.mk.injEq] at rotated
      obtain ⟨rfl, rfl, -⟩ := rotated
      exact Or.inl ⟨by simp, Or.inl rfl⟩
  | none =>
      cases created : sys.create with
      | some err =>
          simp only [linked, created, Prod.mk.injEq] at rotated
          obtain ⟨rfl, rfl, -⟩ := rotated
          exact Or.inl ⟨by simp, Or.inr rfl⟩
      | none =>
          cases headed : sys.header with
          | some err =>
              simp only [linked, created, headed, Prod.mk.injEq] at rotated
              obtain ⟨rfl, rfl, -⟩ := rotated
              exact Or.inl ⟨by simp, Or.inr rfl⟩
          | none =>
              simp only [linked, created, headed, Prod.mk.injEq] at rotated
              obtain ⟨rfl, rfl, -⟩ := rotated
              exact Or.inr ⟨rfl, rfl⟩

private theorem WriteBlock_wrote (sys : System) (w : Writer) (d : Directory) (raw : Bytes) :
    Wrote raw w (WriteBlock sys w d raw).2.1 := by
  unfold WriteBlock
  by_cases large : maxPacketSize < raw.length
  · rw [if_pos large]
    exact .refused
  rw [if_neg large]
  by_cases shut : w.closed = true
  · rw [if_pos shut]
    exact .refused
  rw [if_neg shut]
  by_cases due : w.due = true
  · rw [if_pos due]
    rcases rotated : rotateLocked sys w d with ⟨out, w', d'⟩
    rcases rotateLocked_writer rotated with ⟨failed, same | advanced⟩ | ⟨rfl, opened⟩
    · obtain ⟨err, rfl⟩ := Option.ne_none_iff_exists'.mp failed
      rw [same]
      exact .refused
    · obtain ⟨err, rfl⟩ := Option.ne_none_iff_exists'.mp failed
      rw [advanced]
      exact .unopened
    · subst opened
      rcases writePacket_writer sys w.advance.opened d' raw with same | appended
      · show Wrote raw w (writePacket sys w.advance.opened d' raw).2.1
        rw [same]
        exact .unwritten
      · show Wrote raw w (writePacket sys w.advance.opened d' raw).2.1
        rw [appended]
        exact .rotated
  · rw [if_neg due]
    have idle : w.due = false := by simpa using due
    rcases writePacket_writer sys w d raw with same | appended
    · rw [same]
      exact .refused
    · rw [appended]
      exact .appended idle

/-! The packet count of the open file. -/

/-- The writer has the limits of its configuration and counts the packets of its file. -/
structure Kept (cfg : Config) (w : Writer) : Prop where
  files : w.maxFiles = limit cfg.maxFiles 10
  packets : w.maxPackets = limit cfg.maxPackets 10000
  counts : ∀ file, w.curFile = some file →
    w.pktCount = file.packets.length ∧ w.pktCount ≤ w.maxPackets

private theorem Kept.opened {cfg : Config} {w : Writer} (kept : Kept cfg w) :
    Kept cfg w.advance.opened := by
  refine ⟨kept.files, kept.packets, ?_⟩
  intro file current
  obtain rfl := Option.some.inj current
  exact ⟨rfl, Nat.zero_le _⟩

private theorem Kept.append {cfg : Config} {w : Writer} {raw : Bytes} (kept : Kept cfg w)
    (room : w.pktCount < w.maxPackets) : Kept cfg (w.append raw) := by
  refine ⟨kept.files, kept.packets, ?_⟩
  intro file current
  obtain ⟨before, opened, rfl⟩ := Option.map_eq_some_iff.mp current
  obtain ⟨count, -⟩ := kept.counts before opened
  show w.pktCount + 1 = (before.packets ++ [raw]).length ∧ w.pktCount + 1 ≤ w.maxPackets
  rw [List.length_append, List.length_singleton]
  omega

private theorem Kept.wrote {cfg : Config} {w w' : Writer} {raw : Bytes} (kept : Kept cfg w)
    (wrote : Wrote raw w w') : Kept cfg w' := by
  cases wrote with
  | refused => exact kept
  | unopened =>
      refine ⟨kept.files, kept.packets, ?_⟩
      intro file current
      exact absurd current (by simp [Writer.advance])
  | unwritten => exact kept.opened
  | appended idle =>
      apply kept.append
      simp only [Writer.due, Bool.or_eq_false_iff, decide_eq_false_iff_not] at idle
      omega
  | rotated =>
      apply kept.opened.append
      exact w.takesPackets

private theorem reachable_kept {cfg : Config} {s : State}
    (reached : (sharing cfg).Reachable Machine.any s) : Kept cfg s.writer := by
  apply reached.invariant (fun s => Kept cfg s.writer)
  · intro s start
    rw [show s.writer = freshWriter cfg from start]
    refine ⟨rfl, rfl, ?_⟩
    intro file current
    exact absurd current (by simp [freshWriter])
  · intro s event s' _ kept _ taken
    cases event with
    | write sys raw =>
        obtain rfl := Option.some.inj taken
        exact kept.wrote (WriteBlock_wrote sys s.writer s.dir raw)
    | close =>
        obtain rfl := Option.some.inj taken
        exact ⟨kept.files, kept.packets, kept.counts⟩
    | replace dir =>
        obtain rfl := Option.some.inj taken
        exact kept

/-! The files that a rotation leaves. -/

private theorem isCapture_rotationName (n : Nat) : isCapture (rotationName n) = true := by
  have front (a b c : List Char) : a.isPrefixOf (a ++ b ++ c) = true := by
    rw [List.append_assoc]
    exact List.isPrefixOf_iff_prefix.mpr (List.prefix_append _ _)
  have back (a b : List Char) : b.isSuffixOf (a ++ b) = true :=
    List.isSuffixOf_iff_suffix.mpr (List.suffix_append _ _)
  exact (Bool.and_eq_true _ _).mpr ⟨front _ _ _, back _ _⟩

private theorem scanned_perm {sys : System} {d : Directory} (opens : sys.listing.isSome = true)
    (reads : sys.readable = none) (small : d.names.length ≤ maxCleanupEntries) :
    (scanned sys d).Perm (captures d) := by
  obtain ⟨order, listing⟩ := Option.isSome_iff_exists.mp opens
  have whole : (order.order d.names).take (min maxCleanupEntries maxCleanupEntries) =
      order.order d.names := by
    apply List.take_of_length_le
    rw [(order.perm d.names).length_eq, Nat.min_self]
    exact small
  have names : sys.readdirnames d = some (order.order d.names) := by
    rw [System.readdirnames, listing, reads]
    exact congrArg some whole
  rw [scanned, names]
  exact (order.perm d.names).filter isCapture

private theorem doomed_length (current : Name) {found : List Name} {keep : Nat}
    (positive : 0 < keep)
    (distinct : found.Nodup) :
    (doomed current (found.length - keep) (found.insertionSort (· ≤ ·))).length =
      found.length - keep := by
  have sorted := List.perm_insertionSort (· ≤ ·) found
  have others : ((found.insertionSort (· ≤ ·)).filter (· ≠ current)).length + found.count current =
      found.length := by
    have total := List.length_eq_countP_add_countP (· == current) (l := found)
    rw [← List.countP_eq_length_filter, sorted.countP_eq, total, ← List.count, Nat.add_comm]
    congr 1
    apply List.countP_congr
    intro name _
    simp
  have single := List.nodup_iff_count_le_one.mp distinct current
  rw [doomed_eq, List.length_take]
  omega

private theorem dropScanned_length {sys : System} {w : Writer} {d : Directory}
    (opens : sys.listing.isSome = true) (reads : sys.readable = none)
    (small : d.names.length ≤ maxCleanupEntries) (removes : ∀ name, sys.removable name = true) :
    (captures (dropScanned sys w d)).length ≤ w.maxFiles := by
  have perm := scanned_perm opens reads small
  have distinct := scanned_nodup sys d
  obtain ⟨names, listed⟩ : ∃ names, sys.readdirnames d = some names := by
    obtain ⟨order, listing⟩ := Option.isSome_iff_exists.mp opens
    exact ⟨_, by rw [System.readdirnames, listing]; rfl⟩
  have found : names.filter isCapture = scanned sys d := by
    rw [scanned, listed]
    rfl
  rw [dropScanned, listed]
  simp only [found]
  split
  · next few => exact perm.length_eq ▸ few
  · next many =>
      have used := doomed_length (rotationName w.curFileN) w.keepsFiles distinct
      generalize gone : doomed (rotationName w.curFileN) ((scanned sys d).length - w.maxFiles)
        ((scanned sys d).insertionSort (· ≤ ·)) = removed at used ⊢
      have inside : ∀ name ∈ removed, name ∈ captures d := by
        intro name member
        rw [← gone, mem_doomed distinct] at member
        exact perm.mem_iff.mp member.2.1
      have apart : removed.Nodup := by
        rw [← gone, doomed_eq]
        have ordered := (List.perm_insertionSort (· ≤ ·) (scanned sys d)).nodup_iff.mpr distinct
        exact (ordered.filter _).sublist (List.take_sublist _ _)
      have left : (captures (removed.foldl sys.remove d)).toFinset =
          (captures d).toFinset \ removed.toFinset := by
        ext name
        simp [captures, mem_removals, removes]
        tauto
      calc (captures (removed.foldl sys.remove d)).length
          = (captures (removed.foldl sys.remove d)).toFinset.card :=
            (List.toFinset_card_of_nodup ((Directory.nodup _).filter _)).symm
        _ = (captures d).toFinset.card - removed.toFinset.card := by
            rw [left, Finset.card_sdiff_of_subset]
            intro name member
            exact List.mem_toFinset.mpr (inside name (List.mem_toFinset.mp member))
        _ = (captures d).length - removed.length := by
            rw [captures, List.toFinset_card_of_nodup (d.nodup.filter _),
              List.toFinset_card_of_nodup apart]
        _ ≤ w.maxFiles := by
            rw [used, ← perm.length_eq]
            omega

private theorem current_survives {sys : System} {w : Writer} {d : Directory}
    (there : rotationName w.curFileN ∈ d.names) :
    rotationName w.curFileN ∈ (cleanupLocked sys w d).names := by
  apply mem_dropScanned.mpr
  constructor
  · refine mem_dropIndexed.mpr ⟨there, ?_⟩
    rintro ⟨-, deep, same⟩
    have clash := rotationName_injective same
    have keeps := w.keepsFiles
    omega
  · rintro ⟨-, other, -⟩
    exact other rfl

/-- In every reachable state the count of the writer is the number of packets in its open
file, within the limit. A rotation that succeeds leaves no more capture files than the limit,
and the open file is one of them. -/
theorem rotation_within_limits {cfg : Config} {s : State}
    (reached : (sharing cfg).Reachable Machine.any s) :
    (∀ file, s.writer.curFile = some file →
      s.writer.pktCount = file.packets.length ∧ s.writer.pktCount ≤ limit cfg.maxPackets 10000) ∧
    ∀ sys raw, s.writer.rotates raw = true → sys.grants = true → Thorough s sys →
      (captures (s.write sys raw).dir).length ≤ limit cfg.maxFiles 10 ∧
      ∃ file, (s.write sys raw).writer.curFile = some file ∧
        file.name ∈ captures (s.write sys raw).dir ∧
        (s.write sys raw).writer.pktCount = file.packets.length ∧
        (s.write sys raw).writer.pktCount ≤ limit cfg.maxPackets 10000 := by
  have kept := reachable_kept reached
  refine ⟨fun file current => kept.packets ▸ kept.counts file current, ?_⟩
  intro sys raw rotates granted thorough
  have kept' : Kept cfg (s.write sys raw).writer :=
    kept.wrote (WriteBlock_wrote sys s.writer s.dir raw)
  have dir : (s.write sys raw).dir = cleanupLocked sys s.writer.advance.opened
      (s.dir.create (rotationName (s.writer.curFileN + 1))) :=
    (WriteBlock_rotates rotates granted s.dir).1
  have opened : ∃ file, (s.write sys raw).writer.curFile = some file ∧
      file.name = rotationName (s.writer.curFileN + 1) := by
    rw [State.write, WriteBlock_rotated rotates granted]
    rcases writePacket_writer sys s.writer.advance.opened _ raw with same | appended
    · exact ⟨_, by rw [same]; rfl, rfl⟩
    · exact ⟨_, by rw [appended]; rfl, rfl⟩
  constructor
  · rw [dir, ← kept.files]
    exact dropScanned_length thorough.opens thorough.reads thorough.small thorough.removes
  · obtain ⟨file, current, name⟩ := opened
    refine ⟨file, current, ?_, kept'.packets ▸ kept'.counts file current⟩
    rw [name, captures, List.mem_filter, dir]
    refine ⟨?_, isCapture_rotationName _⟩
    apply current_survives (w := s.writer.advance.opened)
    exact List.mem_insert_iff.mpr (Or.inl rfl)

/-- A directory with planted names, and a writer whose first rotation failed. -/
def planted : State := ⟨⟨["blocked_9.pcap".toList, "blocked_zz.pcap".toList, "notes".toList,
  "blocked_0.pcap".toList], by decide⟩, (freshWriter ⟨"/var/pcap", 2, 1⟩).advance⟩

theorem planted_within_limits :
    (captures (planted.write working [0x45]).dir).length ≤ 2 ∧
      rotationName 2 ∈ captures (planted.write working [0x45]).dir := by
  have start : (sharing ⟨"/var/pcap", 2, 1⟩).Reachable Machine.any
      { planted with writer := freshWriter ⟨"/var/pcap", 2, 1⟩ } := .init rfl
  have reached : (sharing ⟨"/var/pcap", 2, 1⟩).Reachable Machine.any planted :=
    start.of_run [.write { working with create := some "no such device" } [0x45]] rfl
  obtain ⟨few, file, current, member, -⟩ := (rotation_within_limits reached).2 working [0x45]
    rfl rfl ⟨rfl, rfl, by decide, fun _ => rfl⟩
  have name : file.name = rotationName 2 := by
    have opened : (planted.write working [0x45]).writer.curFile.map (·.name) =
      some (rotationName 2) := rfl
    rw [current] at opened
    exact Option.some.inj opened
  exact ⟨few, name ▸ member⟩

end L3Firewall.Capture.FileLimit
