/- Persist/State
   source: internal/persist/persist.go, with encoding/json as it documents itself
   digest: The state file: how it is written, and what is read of it. -/

import L3Firewall.Filepath.Lexical
import L3Firewall.Foundation.FiniteMap
import L3Firewall.Foundation.JsonCut
import Mathlib.Algebra.Order.Ring.Int
import Mathlib.Data.List.Sort

set_option autoImplicit false
set_option relaxedAutoImplicit false

namespace L3Firewall.Persist.State

open Filepath.Lexical (Pathname)
open Foundation.FiniteMap
open Foundation.Utf8 (Bytes Valid encode pieces sanitize Piece.shown pieces_encode sanitize_encode)
open Foundation.JsonText (ascii decimal intValue intValue_decimal length_decimal_le)
open Foundation.Json
open Foundation.JsonCut (object_of_longer)

def maxStateFileSize : Nat := 10 * 1024 * 1024

structure EngineState where
  blockStats : FMap Bytes Int64

/-! The format. -/

def blockStatsName : List Char := ['b', 'l', 'o', 'c', 'k', '_', 's', 't', 'a', 't', 's']

/-- A map is written with its keys in order. -/
def byKey : RangeOrder ((_ : Bytes) × Int64) where
  order entries := entries.insertionSort fun a b => a.1 ≤ b.1
  perm := List.perm_insertionSort _

def sorted (stats : FMap Bytes Int64) : List ((_ : Bytes) × Int64) := range byKey stats

def statsText (stats : FMap Bytes Int64) : Bytes :=
  writeObject ((sorted stats).map fun e => (e.1, decimal e.2.toInt))

/-- The encoder ends a value with a newline. -/
def encodeState (state : EngineState) : Bytes :=
  writeObject [(encode blockStatsName, statsText state.blockStats)] ++ ascii ['\n']

/-- How deep the decoder lets arrays and objects nest. -/
def maxNestingDepth : Nat := 10000

/-- Letters of one case. Two other characters fold to letters of the field's name. -/
def foldChar (c : Char) : Char :=
  if c.toNat = 0x17F then 'S' else if c.toNat = 0x212A then 'K' else c.toUpper

/-- Names of fields match without regard to case. -/
def isBlockStats (key : Bytes) : Bool :=
  (pieces key).map (fun p => foldChar p.shown) = blockStatsName.map foldChar

def int64Value (text : Bytes) : Option Int64 :=
  match intValue text with
  | none => none
  | some n => if -2 ^ 63 ≤ n ∧ n < 2 ^ 63 then some (Int64.ofInt n) else none

def decodeEntry (stats : FMap Bytes Int64) (m : Bytes × Value) : Option (FMap Bytes Int64) :=
  match m.2 with
  | .null => some (stats.insert m.1 0)
  | .number text => (int64Value text).map fun n => stats.insert m.1 n
  | _ => none

/-- Entries are added to the map that is there. -/
def decodeStats (stats : FMap Bytes Int64) : Value → Option (FMap Bytes Int64)
  | .null => some ∅
  | .object members => members.foldlM decodeEntry stats
  | _ => none

def decodeField (stats : FMap Bytes Int64) (m : Bytes × Value) : Option (FMap Bytes Int64) :=
  if isBlockStats m.1 then decodeStats stats m.2 else some stats

/-- A nil map and an empty one are the same here: the first is replaced by the second. -/
def decodeState : Value → Option EngineState
  | .null => some ⟨∅⟩
  | .object members => (members.foldlM decodeField ∅).map EngineState.mk
  | _ => none

/-- The text is no JSON, or it is that of something else. -/
inductive DecodeError
  | malformed
  | mistyped
  deriving DecidableEq

/-- The first value of the text. What follows it is not looked at. -/
def decode (text : Bytes) : Except DecodeError EngineState :=
  match value maxNestingDepth text with
  | none => .error .malformed
  | some (v, _) =>
      match decodeState v with
      | none => .error .mistyped
      | some state => .ok state

/-! Files. -/

abbrev Files := FMap Pathname Bytes

/-- The errors of the calls that `SaveState` makes. -/
structure Saving where
  mkdirAll : Option String
  symlink : Option String
  openTmp : Option String
  write : Option String
  /-- With the number of bytes that are kept: the end of the text is lost. -/
  close : Option (Nat × String)
  rename : Option String

/-- What is in the temporary file once it is closed. -/
def Saving.kept (sys : Saving) (state : EngineState) : Bytes :=
  match sys.close with
  | none => encodeState state
  | some (n, _) => (encodeState state).take n

/-- The error of the close is not looked at. -/
def SaveState (sys : Saving) (path : Pathname) (state : Option EngineState) (files : Files) :
    Option String × Files :=
  match state with
  | none => (none, files)
  | some state =>
      let tmpPath := path ++ ['.', 't', 'm', 'p']
      if path = [] then (none, files)
      else if ['.', '.'] <:+: path then
        (some ("path traversal rejected: " ++ String.ofList path), files)
      else match sys.mkdirAll with
        | some err => (some ("creating state dir: " ++ err), files)
        | none =>
            match sys.symlink with
            | some err => (some err, files)
            | none =>
                match sys.openTmp with
                | some err => (some ("creating temp state file: " ++ err), files)
                | none =>
                    match sys.write with
                    | some err => (some ("encoding state: " ++ err), files.erase tmpPath)
                    | none =>
                        match sys.rename with
                        | some err => (some ("renaming state file: " ++ err), files.erase tmpPath)
                        | none => (none, (files.erase tmpPath).insert path (sys.kept state))

/-- The errors of the calls that `LoadState` makes, and whether the file is a regular one. -/
structure Loading where
  symlink : Option String
  /-- An error other than that there is no such file. -/
  openFile : Option String
  stat : Option String
  regular : Bool

inductive LoadError
  | refused (text : String)
  | decoding (err : DecodeError)

/-- The text of an error, with the decoder's own text for its errors. -/
def LoadError.text (json : DecodeError → String) : LoadError → String
  | .refused text => text
  | .decoding err => "decoding state: " ++ json err

def LoadState (sys : Loading) (path : Pathname) (files : Files) :
    Except LoadError (Option EngineState) :=
  if path = [] then .ok none
  else if ['.', '.'] <:+: path then
    .error (.refused ("path traversal rejected: " ++ String.ofList path))
  else match sys.symlink with
    | some err => .error (.refused err)
    | none =>
        match sys.openFile, files.lookup path with
        | some err, _ => .error (.refused ("opening state file: " ++ err))
        | none, none => .ok none
        | none, some contents =>
            match sys.stat with
            | some err => .error (.refused ("stating state file: " ++ err))
            | none =>
                if sys.regular then
                  match decode (contents.take (maxStateFileSize + 1)) with
                  | .error err => .error (.decoding err)
                  | .ok state => .ok (some state)
                else .error (.refused
                  ("state path is not a regular file: " ++ String.ofList path))

/-- The close loses no more than the newline at the end. -/
def Saving.Whole (sys : Saving) (state : EngineState) : Prop :=
  ∀ lost ∈ sys.close, (encodeState state).length ≤ lost.1 + 1

/-- Every call succeeds and the file is a regular one. -/
def Loading.Granted (sys : Loading) : Prop :=
  sys.symlink = none ∧ sys.openFile = none ∧ sys.stat = none ∧ sys.regular = true

/-! What is read of a state that was written. -/

section Format

variable (stats : FMap Bytes Int64)

def shownEntries : List (Bytes × Int64) := (sorted stats).map fun e => (sanitize e.1, e.2)

variable {stats}

private theorem int64Value_decimal (n : Int64) : int64Value (decimal n.toInt) = some n := by
  have inside : -2 ^ 63 ≤ n.toInt ∧ n.toInt < 2 ^ 63 := ⟨n.le_toInt, n.toInt_lt⟩
  rw [int64Value, intValue_decimal]
  dsimp only
  rw [if_pos inside, Int64.ofInt_toInt]

private theorem decodeEntries (l : List ((_ : Bytes) × Int64)) (m : FMap Bytes Int64) :
    (l.map fun e => (sanitize e.1, Value.number (decimal e.2.toInt))).foldlM decodeEntry m =
      some (insertAll m (l.map fun e => (sanitize e.1, e.2))) := by
  induction l generalizing m with
  | nil => rfl
  | cons e l ih =>
      have first : decodeEntry m (sanitize e.1, Value.number (decimal e.2.toInt)) =
          some (m.insert (sanitize e.1) e.2) := by
        rw [decodeEntry]
        dsimp only
        rw [int64Value_decimal, Option.map_some]
      rw [List.map_cons, List.foldlM_cons, first, Option.bind_eq_bind, Option.bind_some, ih]
      rfl

private theorem isBlockStats_name : isBlockStats (sanitize (encode blockStatsName)) = true := by
  rw [sanitize_encode, isBlockStats, pieces_encode]
  decide

private theorem value_statsText (depth : Nat) (t : Bytes) :
    value (depth + 1) (statsText stats ++ t) =
      some (.object ((sorted stats).map fun e => (sanitize e.1, .number (decimal e.2.toInt))),
        t) := by
  rw [statsText, value_writeObject Value.number, List.map_map]
  · rfl
  · intro m member b t delimits
    obtain ⟨e, -, rfl⟩ := List.mem_map.mp member
    apply value_decimal
    rcases delimits with rfl | rfl <;> decide

def stateText (stats : FMap Bytes Int64) : Bytes :=
  writeObject [(encode blockStatsName, statsText stats)]

private theorem encodeState_eq (stats : FMap Bytes Int64) :
    encodeState ⟨stats⟩ = stateText stats ++ ascii ['\n'] := rfl

private theorem value_stateText (t : Bytes) :
    value maxNestingDepth (stateText stats ++ t) =
      some (.object [(sanitize (encode blockStatsName), .object
        ((sorted stats).map fun e => (sanitize e.1, .number (decimal e.2.toInt))))], t) := by
  rw [stateText, maxNestingDepth, value_writeObject fun _ => .object
    ((sorted stats).map fun e => (sanitize e.1, .number (decimal e.2.toInt)))]
  · rfl
  · intro m member b t _
    obtain rfl := List.mem_singleton.mp member
    exact value_statsText _ _

private theorem decode_stateText (t : Bytes) :
    decode (stateText stats ++ t) = .ok ⟨insertAll ∅ (shownEntries stats)⟩ := by
  rw [decode, value_stateText]
  dsimp only
  rw [decodeState, List.foldlM_cons, decodeField, if_pos isBlockStats_name, decodeStats,
    decodeEntries]
  rfl

private theorem value_cut {n : Nat} (short : n < (stateText stats).length) :
    value maxNestingDepth ((stateText stats).take n) = none := by
  by_contra read
  obtain ⟨⟨v, rest⟩, read⟩ := Option.ne_none_iff_exists'.mp read
  have longer : value maxNestingDepth (stateText stats) =
      some (v, rest ++ (stateText stats).drop n) := by
    cases n with
    | zero => cases read
    | succ n =>
        have parts := List.take_append_drop (n + 1) (stateText stats)
        rw [← congrArg (value maxNestingDepth) parts]
        exact object_of_longer read ((stateText stats).drop (n + 1))
  have whole := @value_stateText stats []
  rw [List.append_nil, longer] at whole
  have left := congrArg List.length (Prod.mk.inj (Option.some.inj whole)).2
  rw [List.length_append, List.length_drop, List.length_nil] at left
  omega

private theorem decode_take (stats : FMap Bytes Int64) (n : Nat) :
    decode ((encodeState ⟨stats⟩).take n) =
      if (encodeState ⟨stats⟩).length ≤ n + 1 then .ok ⟨insertAll ∅ (shownEntries stats)⟩
      else .error .malformed := by
  have size : (encodeState ⟨stats⟩).length = (stateText stats).length + 1 := List.length_append
  rw [encodeState_eq] at size ⊢
  split
  · rw [List.take_append, List.take_of_length_le (by omega), decode_stateText]
  · rw [List.take_append_of_le_length (by omega), decode, value_cut (by omega)]

theorem length_encodeState_le {n : Nat} (short : ∀ k ∈ stats, k.length ≤ n) :
    (encodeState ⟨stats⟩).length ≤ len stats * (6 * n + 24) + 100 := by
  have entries : (statsText stats).length ≤ len stats * (6 * n + 24) + 2 := by
    have count : ((sorted stats).map fun e => (e.1, decimal e.2.toInt)).length = len stats := by
      rw [List.length_map, sorted, range_length]
    rw [statsText, ← count]
    apply @length_writeObject_le _ (6 * n + 23)
    intro m member
    obtain ⟨e, found, rfl⟩ := List.mem_map.mp member
    have key := short e.1 (mem_of_lookup (mem_range_iff.mp found))
    have low := e.2.le_toInt
    have high := e.2.toInt_lt
    have count := @length_decimal_le e.2.toInt 19 (by decide) (by omega)
    dsimp only
    omega
  have whole := @length_writeObject_le [(encode blockStatsName, statsText stats)]
    (6 * 11 + (statsText stats).length + 3) (by
      intro m member
      obtain rfl := List.mem_singleton.mp member
      exact Nat.le_refl _)
  have newline : (encodeState ⟨stats⟩).length = (stateText stats).length + 1 := List.length_append
  rw [stateText] at newline
  rw [List.length_singleton] at whole
  omega

end Format

section Calls

variable {saving : Saving} {loading : Loading} {path : Pathname} {state : EngineState}
  {files : Files}

theorem SaveState_ok (named : path ≠ [])
    (saved : (SaveState saving path (some state) files).1 = none) :
    ¬ ['.', '.'] <:+: path ∧
      (SaveState saving path (some state) files).2.lookup path = some (saving.kept state) := by
  unfold SaveState at saved ⊢
  dsimp only at saved ⊢
  rw [if_neg named] at saved ⊢
  split at saved
  · exact absurd saved (by simp)
  · next plain =>
      rw [if_neg plain]
      refine ⟨plain, ?_⟩
      -- Every call that fails is reported but the close, so none of the five did.
      iterate 5
        split at saved
        · exact absurd saved (by simp)
      exact AList.lookup_insert _

theorem LoadState_granted {contents : Bytes} (granted : loading.Granted) (named : path ≠ [])
    (plain : ¬ ['.', '.'] <:+: path) (found : files.lookup path = some contents)
    (small : contents.length ≤ maxStateFileSize) :
    LoadState loading path files =
      match decode contents with
      | .error err => .error (.decoding err)
      | .ok state => .ok (some state) := by
  obtain ⟨noLink, opened, known, regular⟩ := granted
  rw [LoadState, if_neg named, if_neg plain, noLink]
  dsimp only
  rw [opened, found]
  dsimp only
  rw [known]
  dsimp only
  rw [if_pos regular, List.take_of_length_le (Nat.le_succ_of_le small)]

private theorem kept_eq_take (saving : Saving) (state : EngineState) :
    ∃ n, saving.kept state = (encodeState state).take n ∧
      (saving.Whole state ↔ (encodeState state).length ≤ n + 1) := by
  unfold Saving.kept Saving.Whole
  cases saving.close with
  | none =>
      refine ⟨(encodeState state).length, (List.take_length).symm, ?_⟩
      exact ⟨fun _ => Nat.le_succ _, fun _ lost missing => absurd missing (by simp)⟩
  | some lost => exact ⟨lost.1, rfl, by simp⟩

theorem decode_whole (whole : saving.Whole state) :
    decode (saving.kept state) = .ok ⟨insertAll ∅ (shownEntries state.blockStats)⟩ := by
  obtain ⟨n, cut, long⟩ := kept_eq_take saving state
  exact (congrArg decode cut).trans
    ((decode_take state.blockStats n).trans (if_pos (long.mp whole)))

theorem decode_torn (torn : ¬ saving.Whole state) :
    decode (saving.kept state) = .error .malformed := by
  obtain ⟨n, cut, long⟩ := kept_eq_take saving state
  exact (congrArg decode cut).trans
    ((decode_take state.blockStats n).trans (if_neg fun enough => torn (long.mpr enough)))

theorem length_kept_le : (saving.kept state).length ≤ (encodeState state).length := by
  obtain ⟨n, cut, -⟩ := kept_eq_take saving state
  rw [cut]
  exact List.length_take_le' n _

/-- What is loaded of a state that was saved and fits the limit: all of it, with its keys as far as
they are UTF-8, or nothing if the close lost the end of it. -/
theorem load_of_saved (named : path ≠ [])
    (saved : (SaveState saving path (some state) files).1 = none) (granted : loading.Granted)
    (small : (encodeState state).length ≤ maxStateFileSize) :
    (saving.Whole state → LoadState loading path (SaveState saving path (some state) files).2 =
      .ok (some ⟨insertAll ∅ (shownEntries state.blockStats)⟩)) ∧
    (¬ saving.Whole state → LoadState loading path (SaveState saving path (some state) files).2 =
      .error (.decoding .malformed)) := by
  obtain ⟨plain, found⟩ := SaveState_ok named saved
  rw [LoadState_granted granted named plain found (Nat.le_trans length_kept_le small)]
  constructor
  · intro whole
    rw [decode_whole whole]
  · intro torn
    rw [decode_torn torn]

end Calls

end L3Firewall.Persist.State
