/- Pipeline/Restart
   source: internal/engine/engine.go
   digest: Block statistics come back after a restart if and only if their keys are UTF-8. -/

import L3Firewall.Persist.State
import L3Firewall.Pipeline.BlockStats

set_option autoImplicit false
set_option relaxedAutoImplicit false

namespace L3Firewall.Pipeline.Restart

open Filepath.Lexical (Pathname)
open Foundation.FiniteMap
open Foundation.Utf8
open Opa.Evaluator (Text)
open Persist.State
open Handlers
open BlockStats

/-- The map that `saveState` copies the statistics into. -/
def copied (o : RangeOrder ((_ : Text) × Int)) (m : FMap Text Int) : FMap Bytes Int64 :=
  insertAll ∅ ((range o m).map fun entry => (entry.1, Int64.ofInt entry.2))

/-- The error is only logged. -/
def saveState (sys : Saving) (o : RangeOrder ((_ : Text) × Int)) (statePath : Pathname)
    (e : Engine) (files : Files) : Option String × Files :=
  if statePath = [] then (none, files)
  else SaveState sys statePath (some ⟨copied o e.blockStats⟩) files

def mergeEntry (m : FMap Text Int) (entry : (_ : Bytes) × Int64) : FMap Text Int :=
  if len m < maxBlockStatsReasons then m.insert entry.1 entry.2.toInt else m

def restoreState (sys : Loading) (o : RangeOrder ((_ : Bytes) × Int64)) (statePath : Pathname)
    (files : Files) (e : Engine) : Engine :=
  if statePath = [] then e
  else match LoadState sys statePath files with
    | .error _ => e
    | .ok none => e
    | .ok (some state) =>
        if len state.blockStats = 0 then e
        else { e with blockStats := (range o state.blockStats).foldl mergeEntry e.blockStats }

/-- A count as the signed integer of 64 bits that holds it. -/
def held (count : Int) : Int := (Int64.ofInt count).toInt

section Saved

variable {e : Engine} {calls : List Blocked} {m : FMap Text Int}
  {o : RangeOrder ((_ : Text) × Int)}

private theorem after_keys_short (short : ∀ r ∈ e.blockStats, r.length ≤ maxReasonLength) :
    ∀ r ∈ (after e calls).blockStats, r.length ≤ maxReasonLength := by
  induction calls generalizing e with
  | nil => exact short
  | cons b rest ih =>
      apply ih
      intro r known
      rcases mem_record.mp known with old | ⟨rfl, -⟩
      · exact short r old
      · exact List.length_take_le _ _

private theorem mem_copied {r : Text} : r ∈ copied o m ↔ r ∈ m := by
  rw [← AList.lookup_isSome, ← AList.lookup_isSome, copied, lookup_insertAll_range,
    Option.isSome_map]

private theorem len_copied_le : len (copied o m) ≤ len m := len_insertAll_range_le o m _

private theorem copied_fits (few : len m ≤ maxBlockStatsReasons)
    (short : ∀ r ∈ m, r.length ≤ maxReasonLength) :
    (encodeState ⟨copied o m⟩).length ≤ maxStateFileSize := by
  have keys : ∀ r ∈ copied o m, r.length ≤ maxReasonLength := fun r known =>
    short r (mem_copied.mp known)
  have size := length_encodeState_le keys
  have count : len (copied o m) ≤ 256 := Nat.le_trans len_copied_le few
  calc (encodeState ⟨copied o m⟩).length
      ≤ len (copied o m) * (6 * maxReasonLength + 24) + 100 := size
    _ ≤ 256 * (6 * maxReasonLength + 24) + 100 :=
        Nat.add_le_add_right (Nat.mul_le_mul_right _ count) 100
    _ ≤ maxStateFileSize := by decide

end Saved

section Restored

variable {stats : FMap Bytes Int64}

private theorem mem_shownEntries {r : Bytes} (known : r ∈ insertAll ∅ (shownEntries stats)) :
    Valid r := by
  obtain ⟨entry, member, rfl⟩ := List.mem_map.mp (mem_insertAll known)
  obtain ⟨found, -, rfl⟩ := List.mem_map.mp member
  exact sanitize_valid found.1

theorem lookup_shown (valid : ∀ r ∈ stats, Valid r) (r : Bytes) :
    (insertAll ∅ (shownEntries stats)).lookup r = stats.lookup r := by
  have same : shownEntries stats = (sorted stats).map fun entry => (entry.1, id entry.2) := by
    apply List.map_congr_left
    intro entry member
    rw [sanitize_eq_iff.mpr (valid entry.1 (mem_of_lookup (mem_range_iff.mp member)))]
    rfl
  rw [same, sorted, lookup_insertAll_range, Option.map_id_fun, id]

theorem len_shown_le : len (insertAll ∅ (shownEntries stats)) ≤ len stats :=
  len_insertAll_range_le byKey stats _

private theorem foldl_mergeEntry {m : FMap Text Int} {l : List ((_ : Bytes) × Int64)}
    (room : len m + l.length ≤ maxBlockStatsReasons) :
    l.foldl mergeEntry m = insertAll m (l.map fun entry => (entry.1, entry.2.toInt)) := by
  induction l generalizing m with
  | nil => rfl
  | cons entry l ih =>
      rw [List.length_cons] at room
      have first : mergeEntry m entry = m.insert entry.1 entry.2.toInt := if_pos (by omega)
      have grown := len_insert_le m entry.1 entry.2.toInt
      rw [List.foldl_cons, first, ih (by omega)]
      rfl

theorem restoreState_fresh {sys : Loading} {o : RangeOrder ((_ : Bytes) × Int64)}
    {statePath : Pathname} {files : Files} {e : Engine} (named : statePath ≠ [])
    (fresh : e.blockStats = ∅) (loaded : LoadState sys statePath files = .ok (some ⟨stats⟩))
    (few : len stats ≤ maxBlockStatsReasons) (r : Text) :
    (restoreState sys o statePath files e).blockStats.lookup r =
      (stats.lookup r).map Int64.toInt := by
  have merged : (restoreState sys o statePath files e).blockStats =
      (range o stats).foldl mergeEntry ∅ := by
    rw [restoreState, if_neg named, loaded]
    dsimp only
    split
    · next none =>
        have nothing : range o stats = [] := by
          apply List.eq_nil_of_length_eq_zero
          rw [range_length]
          exact none
        rw [fresh, nothing, List.foldl_nil]
    · rw [fresh]
  have room : len (∅ : FMap Text Int) + (range o stats).length ≤ maxBlockStatsReasons := by
    rw [range_length, len_empty, Nat.zero_add]
    exact few
  rw [merged, foldl_mergeEntry room, lookup_insertAll_range]

end Restored

section Restarted

variable {e fresh : Engine} {calls : List Blocked} {saving : Saving} {loading : Loading}
  {copy : RangeOrder ((_ : Text) × Int)} (merge : RangeOrder ((_ : Bytes) × Int64))
  {statePath : Pathname} {files : Files}

private theorem after_len_le (empty : e.blockStats = ∅) :
    len (after e calls).blockStats ≤ maxBlockStatsReasons := by
  apply after_len_le_max
  rw [empty]
  exact Nat.zero_le _

private theorem load_of_saveState (empty : e.blockStats = ∅) (named : statePath ≠ [])
    (saved : (saveState saving copy statePath (after e calls) files).1 = none)
    (granted : loading.Granted) :
    (saving.Whole ⟨copied copy (after e calls).blockStats⟩ →
      LoadState loading statePath
          (saveState saving copy statePath (after e calls) files).2 =
        .ok (some ⟨insertAll ∅ (shownEntries (copied copy (after e calls).blockStats))⟩)) ∧
    (¬ saving.Whole ⟨copied copy (after e calls).blockStats⟩ →
      LoadState loading statePath
          (saveState saving copy statePath (after e calls) files).2 =
        .error (.decoding .malformed)) := by
  have short : ∀ r ∈ (after e calls).blockStats, r.length ≤ maxReasonLength := by
    apply after_keys_short
    intro r known
    rw [empty] at known
    exact absurd known (AList.notMem_empty r)
  rw [saveState, if_neg named] at saved ⊢
  exact load_of_saved named saved granted (copied_fits (after_len_le empty) short)

private theorem restored_lookup (empty : e.blockStats = ∅) (started : fresh.blockStats = ∅)
    (named : statePath ≠ [])
    (saved : (saveState saving copy statePath (after e calls) files).1 = none)
    (granted : loading.Granted) (whole : saving.Whole ⟨copied copy (after e calls).blockStats⟩)
    (r : Text) :
    (restoreState loading merge statePath
        (saveState saving copy statePath (after e calls) files).2 fresh).blockStats.lookup r =
      ((insertAll ∅ (shownEntries (copied copy (after e calls).blockStats))).lookup r).map
        Int64.toInt := by
  have loaded := (load_of_saveState empty named saved granted).1 whole
  have fits : len (insertAll ∅ (shownEntries (copied copy (after e calls).blockStats))) ≤
      maxBlockStatsReasons :=
    Nat.le_trans len_shown_le (Nat.le_trans len_copied_le (after_len_le empty))
  exact restoreState_fresh named started loaded fits r

private theorem restored_torn (empty : e.blockStats = ∅) (started : fresh.blockStats = ∅)
    (named : statePath ≠ [])
    (saved : (saveState saving copy statePath (after e calls) files).1 = none)
    (granted : loading.Granted) (torn : ¬ saving.Whole ⟨copied copy (after e calls).blockStats⟩)
    (r : Text) :
    (restoreState loading merge statePath
        (saveState saving copy statePath (after e calls) files).2 fresh).blockStats.lookup r =
      none := by
  have refused := (load_of_saveState empty named saved granted).2 torn
  rw [restoreState, if_neg named, refused]
  dsimp only
  rw [started]
  exact AList.lookup_empty r

end Restarted

/-- The statistics of a saved engine come back under the same keys with the same counts if and
only if there are none, or every key is valid UTF-8 and the close lost no more than the newline at
the end of the file. -/
theorem stats_survive_restart_iff (e fresh : Engine) (calls : List Blocked) (saving : Saving)
    (loading : Loading) (copy : RangeOrder ((_ : Text) × Int))
    (merge : RangeOrder ((_ : Bytes) × Int64)) (statePath : Pathname) (files : Files)
    (empty : e.blockStats = ∅) (started : fresh.blockStats = ∅) (named : statePath ≠ [])
    (saved : (saveState saving copy statePath (after e calls) files).1 = none)
    (granted : loading.Granted) :
    (∀ r, (restoreState loading merge statePath
          (saveState saving copy statePath (after e calls) files).2 fresh).blockStats.lookup r =
        ((after e calls).blockStats.lookup r).map held) ↔
      ∀ r ∈ (after e calls).blockStats,
        Valid r ∧ saving.Whole ⟨copied copy (after e calls).blockStats⟩ := by
  have restored := restored_lookup merge empty started named saved granted
  have lost := restored_torn merge empty started named saved granted
  constructor
  · intro same r known
    obtain ⟨count, found⟩ := Option.isSome_iff_exists.mp (AList.lookup_isSome.mpr known)
    have back := same r
    rw [found, Option.map_some] at back
    by_cases whole : saving.Whole ⟨copied copy (after e calls).blockStats⟩
    · rw [restored whole, Option.map_eq_some_iff] at back
      obtain ⟨n, present, -⟩ := back
      exact ⟨mem_shownEntries (mem_of_lookup present), whole⟩
    · rw [lost whole] at back
      cases back
  · intro valid r
    by_cases whole : saving.Whole ⟨copied copy (after e calls).blockStats⟩
    · rw [restored whole, lookup_shown (fun k known => (valid k (mem_copied.mp known)).1), copied,
        lookup_insertAll_range, Option.map_map]
      rfl
    · -- The file is needed for no entry.
      have none : (after e calls).blockStats.lookup r = none :=
        AList.lookup_eq_none.mpr fun known => whole (valid r known).2
      rw [lost whole, none, Option.map_none]

def willing : Saving := ⟨none, none, none, none, none, none⟩

theorem willing_whole (state : EngineState) : willing.Whole state :=
  fun _ lost => absurd lost (by simp [willing])

def readable : Loading := ⟨none, none, none, true⟩

theorem readable_granted : readable.Granted := ⟨rfl, rfl, rfl, rfl⟩

def stateFile : Pathname := ['/', 's']

private theorem willing_saves (e : Engine) :
    (saveState willing .stored stateFile e ∅).1 = none := by
  have named : stateFile ≠ [] := by decide
  have plain : ¬ ['.', '.'] <:+: stateFile := by decide
  rw [saveState, if_neg named, SaveState, if_neg named, if_neg plain]
  rfl

private theorem mem_after_one {reason r : Text}
    (known : r ∈ (after plainEngine [blockFor reason]).blockStats) : r = truncate reason := by
  rcases mem_record.mp known with old | ⟨same, -⟩
  · exact absurd old (AList.notMem_empty r)
  · exact same.symm

theorem ascii_reason_survives :
    (saveState willing .stored stateFile
        (after plainEngine [blockFor (encode ['s', 'y', 'n'])]) ∅).1 = none ∧
      ∀ r, (restoreState readable .stored stateFile
          (saveState willing .stored stateFile
            (after plainEngine [blockFor (encode ['s', 'y', 'n'])]) ∅).2
          plainEngine).blockStats.lookup r =
        ((after plainEngine [blockFor (encode ['s', 'y', 'n'])]).blockStats.lookup r).map held := by
  refine ⟨willing_saves _, ?_⟩
  apply (stats_survive_restart_iff plainEngine plainEngine [blockFor (encode ['s', 'y', 'n'])]
    willing readable .stored .stored stateFile ∅ rfl rfl (by decide) (willing_saves _)
    readable_granted).mpr
  intro r known
  exact ⟨⟨['s', 'y', 'n'], mem_after_one known⟩, willing_whole _⟩

/-- A reason one byte longer than the limit, with a last character of two bytes. -/
def longReason : Text := encode (List.replicate 1023 'a') ++ String.utf8EncodeChar 'é'

private theorem truncate_longReason :
    truncate longReason = encode (List.replicate 1023 'a') ++ [0xC3] := by
  have short (n : Nat) : (encode (List.replicate n 'a')).length = n := by
    induction n with
    | zero => rfl
    | succ n ih =>
        show (String.utf8EncodeChar 'a' ++ encode (List.replicate n 'a')).length = n + 1
        rw [List.length_append, ih]
        exact Nat.add_comm 1 n
  have cut : maxReasonLength = (encode (List.replicate 1023 'a')).length + 1 := by
    rw [short]
    rfl
  rw [truncate, longReason, cut, List.take_length_add_append]
  rfl

/-- Truncation cuts a character in two, and its count is not found under the same key again. -/
theorem truncated_reason_lost :
    Valid longReason ∧
      (saveState willing .stored stateFile (after plainEngine [blockFor longReason]) ∅).1 = none ∧
      (after plainEngine [blockFor longReason]).blockStats.lookup (truncate longReason) = some 1 ∧
      (restoreState readable .stored stateFile
        (saveState willing .stored stateFile (after plainEngine [blockFor longReason]) ∅).2
        plainEngine).blockStats.lookup (truncate longReason) = none := by
  refine ⟨?_, willing_saves _, ?_, ?_⟩
  · rw [longReason, valid_append_iff]
    exact ⟨['é'], rfl⟩
  · exact AList.lookup_insert _
  · rw [restored_lookup .stored rfl rfl (by decide) (willing_saves _) readable_granted
      (willing_whole _), Option.map_eq_none_iff, AList.lookup_eq_none]
    intro known
    have valid := mem_shownEntries known
    rw [truncate_longReason, valid_append_iff] at valid
    have lone : lead [0xC3] = none := by decide
    have same := sanitize_eq_iff.mpr valid
    rw [sanitize, pieces_bad lone, pieces_nil] at same
    exact absurd same (by decide)

end L3Firewall.Pipeline.Restart
