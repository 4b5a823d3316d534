/- Pipeline/Lifetimes
   source: internal/engine/engine.go, internal/persist/persist.go
   digest: Block statistics over crashes and restarts: nothing is counted twice, and what a
   process restores is the last copy that was saved. -/

import L3Firewall.Pipeline.Ledger
import L3Firewall.Pipeline.Lifecycle

set_option autoImplicit false
set_option relaxedAutoImplicit false

namespace L3Firewall.Pipeline.Lifetimes

open Foundation.FiniteMap
open Foundation.Runs (Machine)
open Foundation.Utf8
open Filepath.Lexical (Pathname)
open Packet.Parser (Decoder)
open Opa.Evaluator (Text)
open Persist.State
open Handlers
open Course
open Ledger
open Lifecycle
open Restart (copied restoreState restoreState_fresh lookup_shown len_shown_le held)

/-- The statistics of an engine that never stopped and saw these reasons. -/
def statsOf (reasons : List Text) : FMap Text Int := reasons.foldl countReason ∅

/-- Two statistics with the same counters of 64 bits. -/
def Same (m m' : FMap Text Int) : Prop :=
  ∀ r, (m.lookup r).map Int64.ofInt = (m'.lookup r).map Int64.ofInt

def Shows (copy : FMap Bytes Int64) (reasons : List Text) : Prop :=
  ∀ r, copy.lookup r = ((statsOf reasons).lookup r).map Int64.ofInt

section Counting

variable {m m' : FMap Text Int} {reasons : List Text} {r : Text}

private theorem Same.mem_iff (same : Same m m') : r ∈ m ↔ r ∈ m' := by
  rw [← AList.lookup_isSome, ← AList.lookup_isSome, ← Option.isSome_map (f := Int64.ofInt), same r,
    Option.isSome_map]

private theorem Same.len_eq (same : Same m m') : len m = len m' :=
  Nat.le_antisymm (len_le_of_covered id fun k known => ⟨k, same.mem_iff.mp known, rfl⟩)
    (len_le_of_covered id fun k known => ⟨k, same.mem_iff.mpr known, rfl⟩)

private theorem ofInt_getD (same : Same m m') (r : Text) :
    Int64.ofInt ((m.lookup r).getD 0) = Int64.ofInt ((m'.lookup r).getD 0) := by
  have here := same r
  cases known : m.lookup r with
  | none =>
      rw [known, Option.map_none, eq_comm, Option.map_eq_none_iff] at here
      rw [here]
  | some n =>
      rw [known, Option.map_some, eq_comm, Option.map_eq_some_iff] at here
      obtain ⟨n', known', equal⟩ := here
      rw [known']
      exact equal.symm

private theorem Same.count (same : Same m m') (reason : Text) :
    Same (countReason m reason) (countReason m' reason) := by
  unfold countReason
  rw [same.len_eq]
  split
  · intro r
    rw [lookup_insert_eq, lookup_insert_eq]
    split
    · rw [Option.map_some, Option.map_some, Int64.ofInt_add, Int64.ofInt_add, ofInt_getD same]
    · exact same r
  · exact same

private theorem Same.foldl (same : Same m m') (reasons : List Text) :
    Same (reasons.foldl countReason m) (reasons.foldl countReason m') := by
  induction reasons generalizing m m' with
  | nil => exact same
  | cons reason rest ih => exact ih (same.count reason)

private theorem countReason_len_le (bounded : len m ≤ maxBlockStatsReasons) (reason : Text) :
    len (countReason m reason) ≤ maxBlockStatsReasons := by
  unfold countReason
  split
  · next room =>
      have grown := len_insert_le m reason ((m.lookup reason).getD 0 + 1)
      omega
  · exact bounded

private theorem foldl_len_le (bounded : len m ≤ maxBlockStatsReasons) (reasons : List Text) :
    len (reasons.foldl countReason m) ≤ maxBlockStatsReasons := by
  induction reasons generalizing m with
  | nil => exact bounded
  | cons reason rest ih => exact ih (countReason_len_le bounded reason)

private theorem statsOf_len_le (reasons : List Text) :
    len (statsOf reasons) ≤ maxBlockStatsReasons :=
  foldl_len_le (Nat.zero_le _) reasons

private theorem mem_countReason {reason : Text} (known : r ∈ countReason m reason) :
    r ∈ m ∨ r = reason := by
  unfold countReason at known
  split at known
  · rw [AList.mem_insert] at known
    exact known.symm
  · exact .inl known

private theorem mem_foldl (known : r ∈ reasons.foldl countReason m) : r ∈ m ∨ r ∈ reasons := by
  induction reasons generalizing m with
  | nil => exact .inl known
  | cons reason rest ih =>
      rcases ih known with before | later
      · exact (mem_countReason before).imp id fun same => by
          rw [same]
          exact List.mem_cons_self
      · exact .inr (List.mem_cons_of_mem reason later)

private theorem mem_statsOf (known : r ∈ statsOf reasons) : r ∈ reasons :=
  (mem_foldl known).resolve_left (AList.notMem_empty r)

end Counting

section Saving

variable {path : Pathname} {files : Files} {state : EngineState} {sys : Saving}
  {copy : FMap Bytes Int64} {reasons : List Text}

private theorem SaveState_failed (failed : (SaveState sys path (some state) files).1 ≠ none) :
    (SaveState sys path (some state) files).2.lookup path = files.lookup path := by
  have apart : path ≠ path ++ ['.', 't', 'm', 'p'] := fun same => by
    have size := congrArg List.length same
    rw [List.length_append, List.length_cons] at size
    omega
  have cleared : (files.erase (path ++ ['.', 't', 'm', 'p'])).lookup path = files.lookup path := by
    rw [lookup_erase_eq, if_neg apart]
  unfold SaveState at failed ⊢
  dsimp only at failed ⊢
  by_cases named : path = []
  · rw [if_pos named] at failed
    exact absurd rfl failed
  rw [if_neg named] at failed ⊢
  by_cases dots : ['.', '.'] <:+: path
  · rw [if_pos dots]
  rw [if_neg dots] at failed ⊢
  cases made : sys.mkdirAll with
  | some err => rfl
  | none =>
      cases linked : sys.symlink with
      | some err => rfl
      | none =>
          cases opened : sys.openTmp with
          | some err => rfl
          | none =>
              cases wrote : sys.write with
              | some err => exact cleared
              | none =>
                  cases renamed : sys.rename with
                  | some err => exact cleared
                  | none =>
                      rw [made, linked, opened, wrote, renamed] at failed
                      exact absurd rfl failed

private theorem Shows.mem_iff (shows_ : Shows copy reasons) {r : Text} :
    r ∈ copy ↔ r ∈ statsOf reasons := by
  rw [← AList.lookup_isSome, ← AList.lookup_isSome, shows_ r, Option.isSome_map]

private theorem Shows.len_le (shows_ : Shows copy reasons) : len copy ≤ maxBlockStatsReasons :=
  Nat.le_trans (len_le_of_covered id fun k known => ⟨k, shows_.mem_iff.mp known, rfl⟩)
    (statsOf_len_le reasons)

private theorem Shows.fits (shows_ : Shows copy reasons)
    (short : ∀ r ∈ reasons, r.length ≤ maxReasonLength) :
    (encodeState ⟨copy⟩).length ≤ maxStateFileSize := by
  have keys : ∀ r ∈ copy, r.length ≤ maxReasonLength := fun r known =>
    short r (mem_statsOf (shows_.mem_iff.mp known))
  have size := length_encodeState_le keys
  have count : len copy ≤ 256 := shows_.len_le
  calc (encodeState ⟨copy⟩).length
      ≤ len copy * (6 * maxReasonLength + 24) + 100 := size
    _ ≤ 256 * (6 * maxReasonLength + 24) + 100 :=
        Nat.add_le_add_right (Nat.mul_le_mul_right _ count) 100
    _ ≤ maxStateFileSize := by decide

private theorem restoreState_shown {loading : Loading} {o : RangeOrder ((_ : Bytes) × Int64)}
    {e : Engine}
    (named : path ≠ []) (plain : ¬ ['.', '.'] <:+: path) (granted : loading.Granted)
    (fresh : e.blockStats = ∅) (found : files.lookup path = some (sys.kept ⟨copy⟩))
    (shows_ : Shows copy reasons)
    (keys : ∀ r ∈ reasons, r.length ≤ maxReasonLength ∧ Valid r) :
    (sys.Whole ⟨copy⟩ → ∀ r, (restoreState loading o path files e).blockStats.lookup r =
      (copy.lookup r).map Int64.toInt) ∧
    (¬ sys.Whole ⟨copy⟩ → restoreState loading o path files e = e) := by
  have small : (sys.kept ⟨copy⟩).length ≤ maxStateFileSize :=
    Nat.le_trans length_kept_le (shows_.fits fun r known => (keys r known).1)
  have loaded := LoadState_granted granted named plain found small
  refine ⟨fun whole r => ?_, fun torn => ?_⟩
  · have few : len (insertAll ∅ (shownEntries copy)) ≤ maxBlockStatsReasons :=
      Nat.le_trans len_shown_le shows_.len_le
    rw [decode_whole whole] at loaded
    rw [restoreState_fresh named fresh loaded few, lookup_shown]
    intro r known
    exact (keys r (mem_statsOf (shows_.mem_iff.mp known))).2
  · rw [decode_torn torn] at loaded
    rw [restoreState, if_neg named, loaded]

private theorem LoadState_cases (loading : Loading) (path : Pathname) (files : Files) :
    (∃ err, LoadState loading path files = .error err) ∨ LoadState loading path files = .ok none ∨
      path ≠ [] ∧ ¬ ['.', '.'] <:+: path ∧ loading.Granted ∧ ∃ contents,
        files.lookup path = some contents := by
  unfold LoadState
  by_cases named : path = []
  · rw [if_pos named]
    exact .inr (.inl rfl)
  rw [if_neg named]
  by_cases dots : ['.', '.'] <:+: path
  · rw [if_pos dots]
    exact .inl ⟨_, rfl⟩
  rw [if_neg dots]
  cases linked : loading.symlink with
  | some err => exact .inl ⟨_, rfl⟩
  | none =>
      cases opened : loading.openFile with
      | some err => exact .inl ⟨_, rfl⟩
      | none =>
          cases found : files.lookup path with
          | none => exact .inr (.inl rfl)
          | some contents =>
              cases known : loading.stat with
              | some err => exact .inl ⟨_, rfl⟩
              | none =>
                  cases regular : loading.regular with
                  | false => exact .inl ⟨_, rfl⟩
                  | true =>
                      exact .inr (.inr ⟨named, dots, ⟨linked, opened, known, regular⟩, _, rfl⟩)

end Saving

/-- The reasons that a step adds to the statistics. -/
def reasonsOf (d : Decoder) (p : Process) : Label → List Text
  | .handle env attr =>
      match attr.packetID with
      | none => []
      | some _ => (blockOf d env attr.payload p.queue.engine).map BlockLogEntry.reason
  | _ => []

/-- The reasons of a whole run, over all its processes. -/
def reasonsAll (d : Decoder) (path : Pathname) : Process → List Label → List Text
  | _, [] => []
  | p, label :: rest =>
      reasonsOf d p label ++
        match next d path p label with
        | none => []
        | some q => reasonsAll d path q rest

/-- A process starts without statistics, and the reasons are UTF-8. -/
def Honest (d : Decoder) (p : Process) : Label → Prop
  | .boot fresh => fresh.blockStats = ∅
  | label => ∀ r ∈ reasonsOf d p label, Valid r

def Saved (ever : List Text) (copy : FMap Bytes Int64) : Prop :=
  ∃ kept, kept.Sublist ever ∧ Shows copy kept

/-- In memory, in the hands of the ticker and on disk are counters of some of the reasons, each
counted once. -/
structure Tracked (path : Pathname) (ever : List Text) (p : Process) : Prop where
  consistent : Consistent p
  memory : ∃ kept, kept.Sublist ever ∧ Same p.queue.engine.blockStats (statsOf kept)
  unborn : p.main = .restore → p.queue.engine.blockStats = ∅
  copy : ∀ last c, p.ticker = .writing last c → Saved ever c
  disk : ∀ contents, p.files.lookup path = some contents →
    ∃ (sys : Saving) (c : FMap Bytes Int64), contents = sys.kept ⟨c⟩ ∧ Saved ever c
  keys : ∀ r ∈ ever, r.length ≤ maxReasonLength ∧ Valid r

section Steps

variable {d : Decoder} {path : Pathname} {p q : Process} {label : Label} {ever : List Text}

private theorem handleQueuePacket_engine (env : Env) (attr : Attribute) (queue : Queue) :
    (handleQueuePacket d env attr queue).2.engine =
      match attr.packetID with
      | none => queue.engine
      | some _ => (handled d env attr.payload queue.engine).2 := by
  unfold handleQueuePacket
  cases attr.packetID with
  | none => rfl
  | some id =>
      dsimp only
      rw [Foundation.Recover.Action.bind_apply]
      unfold Foundation.Recover.Action.focus
      rw [packetHandler_eq]
      dsimp only [Foundation.Recover.Action.resume]
      unfold setVerdict
      generalize env.setVerdict _ _ = reply
      cases reply with
      | returned _ => rfl
      | failed _ => rfl
      | panicked value => rfl

private theorem Saved.mono {more : List Text} {c : FMap Bytes Int64} (saved : Saved ever c) :
    Saved (ever ++ more) c := by
  obtain ⟨kept, within, shows_⟩ := saved
  exact ⟨kept, within.trans (List.sublist_append_left ever more), shows_⟩

private theorem blockOf_reason_le {env : Env} {payload : Option Packet.Parser.Bytes} {e : Engine}
    {r : Text} (counted : r ∈ (blockOf d env payload e).map BlockLogEntry.reason) :
    r.length ≤ maxReasonLength := by
  obtain ⟨entry, member, rfl⟩ := List.mem_map.mp counted
  obtain ⟨event, -, rfl⟩ := List.mem_map.mp member
  exact List.length_take_le _ _

private theorem reasonsOf_length_le {r : Text} (counted : r ∈ reasonsOf d p label) :
    r.length ≤ maxReasonLength := by
  unfold reasonsOf at counted
  split at counted
  · split at counted
    · exact absurd counted List.not_mem_nil
    · exact blockOf_reason_le counted
  · exact absurd counted List.not_mem_nil

private theorem handle_stats {env : Env} {attr : Attribute} (taken : handle d env attr p = some q) :
    q.queue.engine.blockStats =
        (reasonsOf d p (.handle env attr)).foldl countReason p.queue.engine.blockStats ∧
      q.files = p.files ∧ q.ticker = p.ticker ∧ q.main = p.main := by
  unfold handle at taken
  split at taken
  · next ret queue told =>
      obtain rfl := Option.some.inj taken
      refine ⟨?_, rfl, rfl, rfl⟩
      have engine := @handleQueuePacket_engine d env attr p.queue
      rw [told] at engine
      dsimp only [reasonsOf]
      cases named : attr.packetID with
      | none =>
          rw [named] at engine
          exact congrArg Engine.blockStats engine
      | some id =>
          rw [named] at engine
          dsimp only at engine ⊢
          rw [engine, (handled_records d env attr.payload p.queue.engine).2, List.foldl_map]
  · exact absurd taken nofun

private theorem Tracked.of_same (tracked : Tracked path ever p) (consistent : Consistent q)
    (stats : q.queue.engine.blockStats = p.queue.engine.blockStats) (files : q.files = p.files)
    (ticker : ∀ last c, q.ticker = .writing last c → p.ticker = .writing last c)
    (unborn : q.main = .restore → p.main = .restore) : Tracked path ever q where
  consistent := consistent
  memory := stats ▸ tracked.memory
  unborn := fun here => stats ▸ tracked.unborn (unborn here)
  copy := fun last c held => tracked.copy last c (ticker last c held)
  disk := files ▸ tracked.disk
  keys := tracked.keys

private theorem boot_tracked (tracked : Tracked path ever p) {fresh : Engine}
    (empty : fresh.blockStats = ∅) : Tracked path ever (boot p.files fresh) where
  consistent := boot_consistent p.files fresh
  memory := ⟨[], List.nil_sublist ever, fun r => by
    show (fresh.blockStats.lookup r).map Int64.ofInt = _
    rw [empty]
    rfl⟩
  unborn := fun _ => empty
  copy := nofun
  disk := tracked.disk
  keys := tracked.keys

private theorem restore_tracked (tracked : Tracked path ever p) (here : p.main = .restore)
    (loading : Loading) (o : RangeOrder ((_ : Bytes) × Int64)) :
    ∃ kept, kept.Sublist ever ∧
      Same (restoreState loading o path p.files p.queue.engine).blockStats (statsOf kept) := by
  have empty := tracked.unborn here
  have nothing : ∃ kept, kept.Sublist ever ∧ Same p.queue.engine.blockStats (statsOf kept) :=
    tracked.memory
  rcases LoadState_cases loading path p.files with ⟨err, refused⟩ | absent |
    ⟨named, plain, granted, contents, found⟩
  · rw [restoreState, refused]
    split <;> exact nothing
  · rw [restoreState, absent]
    split <;> exact nothing
  · obtain ⟨sys, c, rfl, kept, within, shows_⟩ := tracked.disk contents found
    have keys : ∀ r ∈ kept, r.length ≤ maxReasonLength ∧ Valid r := fun r known =>
      tracked.keys r (within.subset known)
    obtain ⟨shown, lost⟩ := restoreState_shown named plain granted empty found shows_ keys
    by_cases whole : sys.Whole ⟨c⟩
    · refine ⟨kept, within, fun r => ?_⟩
      rw [shown whole, Option.map_map, ← shows_ r]
      have back : Int64.ofInt ∘ Int64.toInt = id := funext Int64.ofInt_toInt
      rw [back, Option.map_id_fun, id]
    · rw [lost whole]
      exact nothing

private theorem mainStep_tracked {world : World} (tracked : Tracked path ever p)
    (taken : mainStep path world p = some q) : Tracked path ever q := by
  have consistent := mainStep_consistent tracked.consistent taken
  obtain ⟨files, queue, -, ticker⟩ := mainStep_frame taken
  have fewer := (mainStep_rank taken).1
  have past : q.main ≠ .restore := fun here => by
    have first : p.main.rank ≤ 9 := by cases p.main <;> simp [Statement.rank]
    rw [here] at fewer
    exact absurd (Nat.lt_of_lt_of_le fewer first) (by decide)
  by_cases here : p.main = .restore
  · have restored : q.queue.engine.blockStats =
        (restoreState world.loading world.merge path p.files p.queue.engine).blockStats := by
      simp only [mainStep, here, Option.some.injEq] at taken
      subst taken
      rfl
    refine ⟨consistent, restored ▸ restore_tracked tracked here _ _, fun still => absurd still past,
      fun last c held => ?_, files ▸ tracked.disk, tracked.keys⟩
    rw [ticker (by simp [here])] at held
    exact tracked.copy last c held
  · refine tracked.of_same consistent (by rw [queue here]) files (fun last c held => ?_)
      fun still => absurd still past
    by_cases starts : p.main = .startTicker
    · simp only [mainStep, starts, Option.some.injEq] at taken
      subst taken
      cases held
    · exact (ticker starts).symm.trans held

private theorem handlerStep_tracked (tracked : Tracked path ever p)
    (taken : handlerStep p = some q) :
    Tracked path ever q := by
  obtain ⟨main, files, queue, -, ticker⟩ := handlerStep_frame taken
  exact tracked.of_same (handlerStep_consistent tracked.consistent taken) (by rw [queue]) files
    (fun _ _ held => ticker.symm.trans held) fun here => main.symm.trans here

private theorem handle_tracked {env : Env} {attr : Attribute} (tracked : Tracked path ever p)
    (valid : ∀ r ∈ reasonsOf d p (.handle env attr), Valid r)
    (started : p.loop = .handling) (consistent : Consistent q)
    (taken : handle d env attr p = some q) :
    Tracked path (ever ++ reasonsOf d p (.handle env attr)) q := by
  obtain ⟨stats, files, ticker, main⟩ := handle_stats taken
  obtain ⟨kept, within, same⟩ := tracked.memory
  refine ⟨consistent, ⟨kept ++ reasonsOf d p (.handle env attr), within.append_right _, ?_⟩, ?_,
    ?_, ?_, ?_⟩
  · rw [stats, statsOf, List.foldl_append]
    exact same.foldl _
  · intro here
    have registered := tracked.consistent.loop (by simp [started])
    rw [← main, here] at registered
    cases registered
  · intro last c held
    exact (tracked.copy last c (ticker ▸ held)).mono
  · intro contents found
    obtain ⟨sys, c, shown, saved⟩ := tracked.disk contents (files ▸ found)
    exact ⟨sys, c, shown, saved.mono⟩
  · intro r known
    rcases List.mem_append.mp known with before | now
    · exact tracked.keys r before
    · exact ⟨reasonsOf_length_le now, valid r now⟩

private theorem copied_saved (tracked : Tracked path ever p) (o : RangeOrder ((_ : Text) × Int)) :
    Saved ever (copied o p.queue.engine.blockStats) := by
  obtain ⟨kept, within, same⟩ := tracked.memory
  refine ⟨kept, within, fun r => ?_⟩
  rw [copied, lookup_insertAll_range]
  exact same r

private theorem write_disk (tracked : Tracked path ever p) {c : FMap Bytes Int64}
    (saved : Saved ever c)
    (sys : Saving) (contents : Bytes)
    (found : (SaveState sys path (some ⟨c⟩) p.files).2.lookup path = some contents) :
    ∃ (sys : Saving) (c : FMap Bytes Int64), contents = sys.kept ⟨c⟩ ∧ Saved ever c := by
  by_cases wrote : (SaveState sys path (some ⟨c⟩) p.files).1 = none
  · by_cases named : path = []
    · rw [SaveState, if_pos named] at found
      exact tracked.disk contents found
    · rw [(SaveState_ok named wrote).2] at found
      exact ⟨sys, c, (Option.some.inj found).symm, saved⟩
  · rw [SaveState_failed wrote] at found
    exact tracked.disk contents found

def Label.hooks : Label → Bool
  | .handle _ _ => true
  | _ => false

private theorem stepAlive_tracked (tracked : Tracked path ever p)
    (other : Label.hooks label = false)
    (taken : stepAlive d path p label = some q) : Tracked path ever q := by
  have consistent := stepAlive_consistent tracked.consistent taken
  cases label with
  | handle env attr => cases other
  | main world => exact mainStep_tracked tracked taken
  | handler => exact handlerStep_tracked tracked taken
  | signal =>
      obtain rfl := Option.some.inj taken
      by_cases waits : p.handler = .waiting
      · rw [if_pos waits] at consistent ⊢
        exact tracked.of_same consistent rfl rfl (fun _ _ held => held) id
      · rw [if_neg waits]
        exact tracked
  | receive | stopLoop =>
      simp only [stepAlive, Option.ite_none_right_eq_some, Option.some.injEq] at taken
      obtain ⟨-, rfl⟩ := taken
      exact tracked.of_same consistent rfl rfl (fun _ _ held => held) id
  | tick | lastTick =>
      simp only [stepAlive] at taken
      split at taken
      · obtain rfl := Option.some.inj taken
        exact tracked.of_same consistent rfl rfl (fun _ _ held => by cases held) id
      · cases taken
  | copy o =>
      simp only [stepAlive] at taken
      split at taken
      · obtain rfl := Option.some.inj taken
        refine ⟨consistent, tracked.memory, tracked.unborn, fun last c held => ?_, tracked.disk,
          tracked.keys⟩
        obtain ⟨-, rfl⟩ := Ticker.writing.inj held
        exact copied_saved tracked o
      · cases taken
  | write sys =>
      simp only [stepAlive] at taken
      split at taken
      · next last c held =>
          obtain rfl := Option.some.inj taken
          refine ⟨consistent, tracked.memory, tracked.unborn, fun last' c' still => ?_,
            write_disk tracked (tracked.copy last c held) sys, tracked.keys⟩
          dsimp only at still
          split at still <;> cases still
      · cases taken
  | boot fresh => cases taken

private theorem next_tracked (tracked : Tracked path ever p) (honest : Honest d p label)
    (taken : next d path p label = some q) : Tracked path (ever ++ reasonsOf d p label) q := by
  rcases next_cases taken with ⟨fresh, rfl, rfl⟩ | ⟨-, -, taken⟩
  · have still := boot_tracked tracked honest
    rwa [← List.append_nil ever] at still
  cases hooks : Label.hooks label with
  | true =>
      cases label with
      | handle env attr =>
          have consistent := stepAlive_consistent tracked.consistent taken
          simp only [stepAlive, Option.ite_none_right_eq_some] at taken
          exact handle_tracked tracked honest taken.1 consistent taken.2
      | _ => cases hooks
  | false =>
      have nothing : reasonsOf d p label = [] := by
        cases label with
        | handle env attr => cases hooks
        | _ => rfl
      rw [nothing, List.append_nil]
      exact stepAlive_tracked tracked hooks taken

private theorem run_tracked (labels : List Label) (tracked : Tracked path ever p)
    (honest : (firewall d path).Along (Honest d) p labels)
    (ran : (firewall d path).run p labels = some q) :
    Tracked path (ever ++ reasonsAll d path p labels) q := by
  induction labels generalizing p ever with
  | nil =>
      obtain rfl := Option.some.inj ran
      rwa [reasonsAll, List.append_nil]
  | cons label rest ih =>
      obtain ⟨t, taken, ran⟩ := Option.bind_eq_some_iff.mp ran
      have first := next_tracked tracked honest.1 taken
      have later := ih first (honest.2 t taken) ran
      rw [List.append_assoc] at later
      have step : next d path p label = some t := taken
      rw [reasonsAll, step]
      exact later

private theorem boot_first {files : Files} {fresh : Engine} (new : files.lookup path = none)
    (empty : fresh.blockStats = ∅) : Tracked path [] (boot files fresh) where
  consistent := boot_consistent files fresh
  memory := ⟨[], List.Sublist.refl [], fun r => by
    show (fresh.blockStats.lookup r).map Int64.ofInt = _
    rw [empty]
    rfl⟩
  unborn := fun _ => empty
  copy := nofun
  disk := fun contents found => absurd (new.symm.trans found) nofun
  keys := fun r known => absurd known List.not_mem_nil

end Steps

section Recovery

variable {d : Decoder} {path : Pathname} {p q : Process} {label : Label}

def Label.patient : Label → Bool
  | .boot _ | .write _ => false
  | _ => true

private theorem patient_ticker (consistent : Consistent p) {last : Bool} {c : FMap Bytes Int64}
    (held : p.ticker = .writing last c) (patient : Label.patient label = true)
    (taken : next d path p label = some q) : q.ticker = .writing last c := by
  have ticking : p.main.ticking = true := consistent.ticker (by simp [held])
  rcases next_cases taken with ⟨fresh, rfl, -⟩ | ⟨-, -, taken⟩
  · cases patient
  cases label with
  | main world =>
      have started : p.main ≠ .startTicker := fun here => by
        rw [here] at ticking
        cases ticking
      exact ((mainStep_frame taken).2.2.2 started).trans held
  | handler => exact (handlerStep_frame taken).2.2.2.2.trans held
  | signal =>
      obtain rfl := Option.some.inj taken
      split <;> exact held
  | receive | stopLoop =>
      simp only [stepAlive, Option.ite_none_right_eq_some, Option.some.injEq] at taken
      obtain ⟨-, rfl⟩ := taken
      exact held
  | handle env attr =>
      simp only [stepAlive, Option.ite_none_right_eq_some] at taken
      rw [(handle_stats taken.2).2.2.1]
      exact held
  | tick | lastTick | copy =>
      simp only [stepAlive, held] at taken
      cases taken
  | write | boot => cases patient

/-- A write that fails, or none. -/
def Unsaved (path : Pathname) (p : Process) (label : Label) : Prop :=
  ∀ sys last c, label = .write sys → p.ticker = .writing last c →
    (SaveState sys path (some ⟨c⟩) p.files).1 ≠ none

private theorem unsaved_file (unsaved : Unsaved path p label)
    (taken : next d path p label = some q) :
    q.files.lookup path = p.files.lookup path := by
  rcases next_cases taken with ⟨fresh, -, rfl⟩ | ⟨-, -, taken⟩
  · rfl
  cases label with
  | main world => rw [(mainStep_frame taken).1]
  | handler => rw [(handlerStep_frame taken).2.1]
  | signal =>
      obtain rfl := Option.some.inj taken
      split <;> rfl
  | receive | stopLoop =>
      simp only [stepAlive, Option.ite_none_right_eq_some, Option.some.injEq] at taken
      obtain ⟨-, rfl⟩ := taken
      rfl
  | handle env attr =>
      simp only [stepAlive, Option.ite_none_right_eq_some] at taken
      rw [(handle_stats taken.2).2.1]
  | tick | lastTick | copy =>
      simp only [stepAlive] at taken
      split at taken
      · obtain rfl := Option.some.inj taken
        rfl
      · cases taken
  | write sys =>
      simp only [stepAlive] at taken
      split at taken
      · next last c held =>
          obtain rfl := Option.some.inj taken
          exact SaveState_failed (unsaved sys last c rfl held)
      · cases taken
  | boot fresh => cases taken

private theorem run_unsaved_file (labels : List Label)
    (unsaved : (firewall d path).Along (fun p label => Unsaved path p label) p labels)
    (ran : (firewall d path).run p labels = some q) :
    q.files.lookup path = p.files.lookup path := by
  induction labels generalizing p with
  | nil =>
      obtain rfl := Option.some.inj ran
      rfl
  | cons label rest ih =>
      obtain ⟨t, taken, ran⟩ := Option.bind_eq_some_iff.mp ran
      rw [ih (unsaved.2 t taken) ran]
      exact unsaved_file unsaved.1 taken

private theorem copy_kept (consistent : Consistent p) {o : RangeOrder ((_ : Text) × Int)}
    {mid : List Label} (patient : ∀ label ∈ mid, Label.patient label = true)
    (ran : (firewall d path).run p (.copy o :: mid) = some q) :
    ∃ last, q.ticker = .writing last (copied o p.queue.engine.blockStats) := by
  obtain ⟨t, taken, ran⟩ := Option.bind_eq_some_iff.mp ran
  have step : next d path p (.copy o) = some t := taken
  have made : ∃ last, t.ticker = .writing last (copied o p.queue.engine.blockStats) := by
    rcases next_cases step with ⟨fresh, same, -⟩ | ⟨-, -, alive⟩
    · cases same
    · simp only [stepAlive] at alive
      split at alive
      · next last _ =>
          obtain rfl := Option.some.inj alive
          exact ⟨last, rfl⟩
      · cases alive
  have known : Consistent t := by
    rcases next_cases step with ⟨fresh, same, -⟩ | ⟨-, -, alive⟩
    · cases same
    · exact stepAlive_consistent consistent alive
  obtain ⟨last, held⟩ := made
  refine ⟨last, ?_⟩
  exact (Machine.run_invariant (m := firewall d path)
    (fun s => Consistent s ∧ s.ticker = .writing last (copied o p.queue.engine.blockStats))
    (fun label => Label.patient label = true)
    (fun s label u kept patient taken => by
      obtain ⟨known, held⟩ := kept
      refine ⟨?_, patient_ticker known held patient taken⟩
      rcases next_cases taken with ⟨fresh, rfl, -⟩ | ⟨-, -, alive⟩
      · cases patient
      · exact stepAlive_consistent known alive) ⟨known, held⟩ mid patient ran).2

end Recovery

/-- Whatever crashes, restarts and failed saves there are, the statistics are those of one engine
that never stopped and saw some of the blocks: none is counted twice, and none is counted that
did not happen. -/
theorem no_block_counted_twice (d : Decoder) (path : Pathname) (files : Files) (fresh : Engine)
    (new : files.lookup path = none) (empty : fresh.blockStats = ∅) (labels : List Label)
    (honest : (firewall d path).Along (Honest d) (boot files fresh) labels) (p : Process)
    (ran : (firewall d path).run (boot files fresh) labels = some p) :
    ∃ kept, kept.Sublist (reasonsAll d path (boot files fresh) labels) ∧
      ∀ r, (p.queue.engine.blockStats.lookup r).map Int64.ofInt =
        ((statsOf kept).lookup r).map Int64.ofInt := by
  have tracked := run_tracked labels (boot_first new empty) honest ran
  exact tracked.memory

def deniedSyn : Label :=
  .handle { Quiet.quietEnv Evasion.everywhere 0 with
    evaluate := fun _ => .returned (some ⟨false, Opa.Evaluator.text "no"⟩) }
    ⟨some 7, some Counters.wholeSyn⟩

/-- A process that has blocked one packet and is about to copy its statistics. -/
def oneBlock : List Label := start ++ [.receive, deniedSyn, .tick .stored 1 1]

/-- It saves them, blocks another packet, and is killed; the next one restores. -/
def crashed : List Label :=
  oneBlock ++ [.copy .stored, .write Restart.willing, .receive, deniedSyn,
    .boot Quiet.freshEngine, .main willing]

/-- A process starts without statistics, and all reasons are this one. -/
def Uniform (d : Decoder) (p : Process) : Label → Prop
  | .boot fresh => fresh.blockStats.entries = []
  | label => ∀ r ∈ reasonsOf d p label, r = Opa.Evaluator.text "no"

instance (d : Decoder) (p : Process) : (label : Label) → Decidable (Uniform d p label)
  | .boot fresh => inferInstanceAs (Decidable (fresh.blockStats.entries = []))
  | .handle env attr => inferInstanceAs (Decidable
      (∀ r ∈ reasonsOf d p (.handle env attr), r = Opa.Evaluator.text "no"))
  | .main _ | .signal | .handler | .receive | .stopLoop | .tick _ _ _ | .lastTick | .copy _
  | .write _ => isTrue fun _ known => absurd known List.not_mem_nil

private theorem Uniform.honest {d : Decoder} {p : Process} {label : Label}
    (uniform : Uniform d p label) :
    Honest d p label := by
  have valid : Valid (Opa.Evaluator.text "no") := ⟨['n', 'o'], rfl⟩
  cases label with
  | boot fresh => exact AList.ext uniform
  | _ => exact fun r counted => (uniform r counted) ▸ valid

theorem crashed_counts_once : ∃ p kept,
    (firewall Packet.Parser.fixedFields Restart.stateFile).run (boot ∅ Quiet.freshEngine)
        crashed = some p ∧
      p.queue.engine.blockStats.lookup (Opa.Evaluator.text "no") = some 1 ∧
      (reasonsAll Packet.Parser.fixedFields Restart.stateFile (boot ∅ Quiet.freshEngine)
        crashed).length = 2 ∧
      ∀ r, (p.queue.engine.blockStats.lookup r).map Int64.ofInt =
        ((statsOf kept).lookup r).map Int64.ofInt := by
  have ends : ((firewall Packet.Parser.fixedFields Restart.stateFile).run
      (boot ∅ Quiet.freshEngine) crashed).map (fun p =>
        p.queue.engine.blockStats.lookup (Opa.Evaluator.text "no")) = some (some 1) := by
    decide +kernel
  obtain ⟨p, ran, one⟩ := Option.map_eq_some_iff.mp ends
  obtain ⟨kept, -, same⟩ := no_block_counted_twice Packet.Parser.fixedFields Restart.stateFile ∅
    Quiet.freshEngine rfl rfl crashed (.mono (fun _ _ => Uniform.honest) (by decide +kernel)) p ran
  exact ⟨p, kept, ran, one, by decide +kernel, same⟩

/-- A process that can read the state file starts with the statistics of the last save that
reported no error, whatever has happened since: blocks, saves that failed, crashes in the middle
of a save, other processes. If the close of that save lost more than the newline at the end, which
no one is told, it starts with none. -/
theorem recovery_is_last_save (d : Decoder) (path : Pathname) (files : Files) (fresh : Engine)
    (named : path ≠ []) (new : files.lookup path = none) (empty : fresh.blockStats = ∅)
    (labels : List Label) (honest : (firewall d path).Along (Honest d) (boot files fresh) labels)
    (p : Process) (ran : (firewall d path).run (boot files fresh) labels = some p)
    (o : RangeOrder ((_ : Text) × Int)) (mid : List Label)
    (patient : ∀ label ∈ mid, Label.patient label = true) (q : Process)
    (copies : (firewall d path).run p (.copy o :: mid) = some q) (sys : Saving)
    (saved : (SaveState sys path (some ⟨copied o p.queue.engine.blockStats⟩) q.files).1 = none)
    (t : Process) (writes : next d path q (.write sys) = some t) (later : List Label)
    (unsaved : (firewall d path).Along (Unsaved path) t later) (u : Process)
    (goes : (firewall d path).run t later = some u) (again : Engine)
    (started : again.blockStats = ∅) (world : World) (granted : world.loading.Granted)
    (v : Process) (restarts : (firewall d path).run u [.boot again, .main world] = some v)
    (r : Text) :
    (sys.Whole ⟨copied o p.queue.engine.blockStats⟩ →
      v.queue.engine.blockStats.lookup r = (p.queue.engine.blockStats.lookup r).map held) ∧
    (¬ sys.Whole ⟨copied o p.queue.engine.blockStats⟩ →
      v.queue.engine.blockStats.lookup r = none) := by
  have tracked := run_tracked labels (boot_first new empty) honest ran
  obtain ⟨last, holds⟩ := copy_kept tracked.consistent patient copies
  obtain ⟨plain, wrote⟩ := SaveState_ok named saved
  have written : t.files =
      (SaveState sys path (some ⟨copied o p.queue.engine.blockStats⟩) q.files).2 := by
    rcases next_cases writes with ⟨fresh, same, -⟩ | ⟨-, -, alive⟩
    · cases same
    · simp only [stepAlive, holds] at alive
      obtain rfl := Option.some.inj alive
      rfl
  have found : u.files.lookup path =
      some (sys.kept ⟨copied o p.queue.engine.blockStats⟩) := by
    rw [run_unsaved_file later unsaved goes, written, wrote]
  have restored : v.queue.engine =
      restoreState world.loading world.merge path u.files again := by
    obtain ⟨w, booted, ran⟩ := Option.bind_eq_some_iff.mp restarts
    obtain rfl := Option.some.inj booted
    obtain ⟨x, taken, ran⟩ := Option.bind_eq_some_iff.mp ran
    obtain rfl := Option.some.inj taken
    obtain rfl := Option.some.inj ran
    rfl
  obtain ⟨kept, within, shows_⟩ := copied_saved tracked o
  have keys : ∀ r ∈ kept, r.length ≤ maxReasonLength ∧ Valid r := fun r known =>
    tracked.keys r (within.subset known)
  have reads := @restoreState_shown path u.files sys _ _ world.loading world.merge again named
    plain granted started found shows_ keys
  rw [restored]
  refine ⟨fun whole => ?_, fun torn => ?_⟩
  · rw [reads.1 whole, copied, lookup_insertAll_range, Option.map_map]
    rfl
  · rw [reads.2 torn, started]
    exact AList.lookup_empty r

/-- Between the save and the crash another packet is blocked; the next process does not know
of it. -/
theorem crashed_restores_one : ∃ p v,
    (firewall Packet.Parser.fixedFields Restart.stateFile).run (boot ∅ Quiet.freshEngine)
        oneBlock = some p ∧
      (firewall Packet.Parser.fixedFields Restart.stateFile).run (boot ∅ Quiet.freshEngine)
        crashed = some v ∧
      p.queue.engine.blockStats.lookup (Opa.Evaluator.text "no") = some 1 ∧
      v.queue.engine.blockStats.lookup (Opa.Evaluator.text "no") = some 1 := by
  have before : ((firewall Packet.Parser.fixedFields Restart.stateFile).run
      (boot ∅ Quiet.freshEngine) oneBlock).map (fun p =>
        p.queue.engine.blockStats.lookup (Opa.Evaluator.text "no")) = some (some 1) := by
    decide +kernel
  obtain ⟨p, ran, one⟩ := Option.map_eq_some_iff.mp before
  have whole : ((firewall Packet.Parser.fixedFields Restart.stateFile).run
      (boot ∅ Quiet.freshEngine) crashed).isSome = true := by decide +kernel
  obtain ⟨v, all⟩ := Option.isSome_iff_exists.mp whole
  have rest := all
  rw [crashed, Machine.run_append, ran, Option.bind_some] at rest
  obtain ⟨q, copies, rest⟩ := Option.bind_eq_some_iff.mp rest
  obtain ⟨t, writes, rest⟩ := Option.bind_eq_some_iff.mp rest
  obtain ⟨u, receives, rest⟩ := Option.bind_eq_some_iff.mp rest
  obtain ⟨w, blocks, rest⟩ := Option.bind_eq_some_iff.mp rest
  have copied_ : (firewall Packet.Parser.fixedFields Restart.stateFile).run p [.copy .stored] =
      some q := Option.bind_eq_some_iff.mpr ⟨q, copies, rfl⟩
  have goes : (firewall Packet.Parser.fixedFields Restart.stateFile).run t
      [.receive, deniedSyn] = some w :=
    Option.bind_eq_some_iff.mpr ⟨u, receives, Option.bind_eq_some_iff.mpr ⟨w, blocks, rfl⟩⟩
  have saved : (SaveState Restart.willing Restart.stateFile
      (some ⟨copied .stored p.queue.engine.blockStats⟩) q.files).1 = none := by
    have named : Restart.stateFile ≠ [] := by decide
    have plain : ¬ ['.', '.'] <:+: Restart.stateFile := by decide
    rw [SaveState, if_neg named, if_neg plain]
    rfl
  refine ⟨p, v, ran, all, one, ?_⟩
  have restored := (recovery_is_last_save Packet.Parser.fixedFields Restart.stateFile ∅
    Quiet.freshEngine (by decide) rfl rfl oneBlock
    (.mono (fun _ _ => Uniform.honest) (by decide +kernel)) p ran .stored []
    (fun _ known => absurd known List.not_mem_nil) q copied_ Restart.willing saved t writes
    [.receive, deniedSyn]
    ⟨fun _ _ _ other => (by cases other),
      fun _ _ => ⟨fun _ _ _ other => (by cases other), fun _ _ => trivial⟩⟩ w goes
    Quiet.freshEngine rfl willing Restart.readable_granted v rest (Opa.Evaluator.text "no")).1
    (Restart.willing_whole _)
  rw [restored, one]
  decide

end L3Firewall.Pipeline.Lifetimes
