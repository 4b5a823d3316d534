/- Pipeline/BlockStats
   source: internal/engine/engine.go
   digest: The per-reason block counters are exact until a known reason meets a full map. -/

import L3Firewall.Foundation.Runs
import L3Firewall.Pipeline.Handlers

set_option autoImplicit false
set_option relaxedAutoImplicit false

namespace L3Firewall.Pipeline.BlockStats

open Foundation.FiniteMap
open Foundation.Runs
open Conntrack.FlowTable (Time)
open Packet.Parser (PacketInfo TCPFlags FragmentInfo)
open Opa.Evaluator (Text)
open Handlers

/-- The arguments of one call of `recordBlock`, with its clock reading. -/
structure Blocked where
  now : Time
  pi : PacketInfo
  reason : Text
  traceID : String

def record (e : Engine) (b : Blocked) : Engine := e.recordBlock b.now b.pi b.reason b.traceID

def Blocked.key (b : Blocked) : Text := truncate b.reason

/-- Calls of `recordBlock`, from an engine without statistics. -/
def recorder : Machine Engine Blocked where
  init e := e.blockStats = ∅
  next e b := some (record e b)

def after (e : Engine) (calls : List Blocked) : Engine := calls.foldl record e

def full (e : Engine) : Prop := maxBlockStatsReasons ≤ len e.blockStats

instance decidableFull (e : Engine) : Decidable (full e) :=
  inferInstanceAs (Decidable (maxBlockStatsReasons ≤ len e.blockStats))

def callsWith (r : Text) (calls : List Blocked) : Nat := calls.countP (·.key = r)

/-- The calls from the one that makes `r` a key on. -/
def sinceAdmitted (r : Text) : Engine → List Blocked → List Blocked
  | _, [] => []
  | e, b :: rest =>
      if r ∈ (record e b).blockStats then b :: rest else sinceAdmitted r (record e b) rest

/-- A call does not bring `r` to a full map that has it. -/
def SparesReason (r : Text) (e : Engine) (b : Blocked) : Prop :=
  b.key = r → r ∈ e.blockStats → ¬ full e

/-- A call does not bring a known reason to a full map. -/
def Spares (e : Engine) (b : Blocked) : Prop := b.key ∈ e.blockStats → ¬ full e

instance decidableSpares (e : Engine) (b : Blocked) : Decidable (Spares e b) :=
  inferInstanceAs (Decidable (b.key ∈ e.blockStats → ¬ full e))

def counted (r : Text) : Engine → List Blocked → Nat
  | _, [] => 0
  | e, b :: rest =>
      (if b.key = r ∧ ¬ full e then 1 else 0) + counted r (record e b) rest

section Call

variable {e : Engine} {b : Blocked} {r : Text}

private theorem record_of_room (room : ¬ full e) : (record e b).blockStats =
    e.blockStats.insert b.key ((e.blockStats.lookup b.key).getD 0 + 1) :=
  if_pos (Nat.lt_of_not_le room)

private theorem record_of_full (filled : full e) : (record e b).blockStats = e.blockStats :=
  if_neg (Nat.not_lt.mpr filled)

theorem mem_record : r ∈ (record e b).blockStats ↔ r ∈ e.blockStats ∨ b.key = r ∧ ¬ full e := by
  by_cases filled : full e
  · rw [record_of_full filled]
    exact ⟨Or.inl, fun known => known.elim id fun ⟨_, room⟩ => absurd filled room⟩
  · rw [record_of_room filled, AList.mem_insert]
    constructor
    · rintro (rfl | known)
      · exact Or.inr ⟨rfl, filled⟩
      · exact Or.inl known
    · rintro (known | ⟨rfl, _⟩)
      · exact Or.inr known
      · exact Or.inl rfl

private theorem getD_record : ((record e b).blockStats.lookup r).getD 0 =
    (e.blockStats.lookup r).getD 0 + if b.key = r ∧ ¬ full e then 1 else 0 := by
  by_cases filled : full e
  · rw [record_of_full filled, if_neg (fun counts => counts.2 filled), add_zero]
  · rw [record_of_room filled, lookup_insert_eq]
    by_cases same : r = b.key
    · subst same
      simp [filled]
    · rw [if_neg same, if_neg (fun counts => same counts.1.symm), add_zero]

theorem record_len_le (bounded : len e.blockStats ≤ maxBlockStatsReasons) :
    len (record e b).blockStats ≤ maxBlockStatsReasons := by
  by_cases filled : full e
  · rw [record_of_full filled]
    exact bounded
  · rw [record_of_room filled]
    have room : len e.blockStats < maxBlockStatsReasons := Nat.lt_of_not_le filled
    have grown := len_insert_le e.blockStats b.key ((e.blockStats.lookup b.key).getD 0 + 1)
    omega

end Call

section Calls

variable {e : Engine} {r : Text} {calls : List Blocked}

theorem after_len_le_max (bounded : len e.blockStats ≤ maxBlockStatsReasons) :
    len (after e calls).blockStats ≤ maxBlockStatsReasons := by
  induction calls generalizing e with
  | nil => exact bounded
  | cons b rest ih => exact ih (record_len_le bounded)

private theorem mem_after (known : r ∈ e.blockStats) : r ∈ (after e calls).blockStats := by
  induction calls generalizing e with
  | nil => exact known
  | cons b rest ih => exact ih (mem_record.mpr (Or.inl known))

private theorem getD_after : ((after e calls).blockStats.lookup r).getD 0 =
    (e.blockStats.lookup r).getD 0 + counted r e calls := by
  induction calls generalizing e with
  | nil => simp [after, counted]
  | cons b rest ih =>
      show ((after (record e b) rest).blockStats.lookup r).getD 0 = _
      rw [ih, getD_record, counted]
      push_cast
      exact Int.add_assoc _ _ _

private theorem counted_le (r : Text) (e : Engine) (calls : List Blocked) :
    counted r e calls ≤ callsWith r calls := by
  induction calls generalizing e with
  | nil => exact Nat.le_refl 0
  | cons b rest ih =>
      have later := ih (record e b)
      rw [counted, callsWith, List.countP_cons]
      rw [callsWith] at later
      split
      · next counts =>
          rw [if_pos (by simpa using counts.1)]
          omega
      · omega

private theorem counted_known_iff (known : r ∈ e.blockStats) :
    counted r e calls = callsWith r calls ↔ recorder.Along (SparesReason r) e calls := by
  induction calls generalizing e with
  | nil => exact ⟨fun _ => trivial, fun _ => rfl⟩
  | cons b rest ih =>
      have further := ih (mem_record.mpr (Or.inl known) : r ∈ (record e b).blockStats)
      have bound := counted_le r (record e b) rest
      have step : recorder.Along (SparesReason r) e (b :: rest) ↔
          SparesReason r e b ∧ recorder.Along (SparesReason r) (record e b) rest := by
        simp [Machine.Along, recorder]
      rw [step, ← further, counted, callsWith, List.countP_cons, ← callsWith]
      by_cases hit : b.key = r
      · by_cases filled : full e
        · have missed : ¬ SparesReason r e b := fun spared => spared hit known filled
          simp only [hit, filled, missed, not_true_eq_false, and_false, if_false, decide_true,
            if_true, false_and, iff_false]
          omega
        · have spared : SparesReason r e b := fun _ _ => filled
          simp only [hit, filled, spared, not_false_eq_true, and_self, if_true, decide_true,
            true_and]
          omega
      · have spared : SparesReason r e b := fun same => absurd same hit
        simp [hit, spared]

private theorem counted_fresh_iff (fresh : r ∉ e.blockStats) :
    counted r e calls = callsWith r (sinceAdmitted r e calls) ↔
      recorder.Along (SparesReason r) e calls := by
  induction calls generalizing e with
  | nil => exact ⟨fun _ => trivial, fun _ => rfl⟩
  | cons b rest ih =>
      have spared : SparesReason r e b := fun _ known => absurd known fresh
      have step : recorder.Along (SparesReason r) e (b :: rest) ↔
          recorder.Along (SparesReason r) (record e b) rest := by
        simp [Machine.Along, recorder, spared]
      by_cases known : r ∈ (record e b).blockStats
      · have admits : b.key = r ∧ ¬ full e := (mem_record.mp known).resolve_left fresh
        rw [sinceAdmitted, if_pos known, step, ← counted_known_iff known, counted, if_pos admits,
          callsWith, List.countP_cons, if_pos (by simpa using admits.1), ← callsWith]
        omega
      · have passes : ¬ (b.key = r ∧ ¬ full e) := fun admits =>
          known (mem_record.mpr (Or.inr admits))
        rw [sinceAdmitted, if_neg known, step, ← ih known, counted, if_neg passes, Nat.zero_add]

private theorem sinceAdmitted_unknown (never : r ∉ (after e calls).blockStats) :
    sinceAdmitted r e calls = [] := by
  induction calls generalizing e with
  | nil => rfl
  | cons b rest ih =>
      have unknown : r ∉ (record e b).blockStats := fun known =>
        never (mem_after (e := record e b) known)
      rw [sinceAdmitted, if_neg unknown]
      exact ih never

private theorem spares_iff : recorder.Along Spares e calls ↔
    ∀ r, recorder.Along (SparesReason r) e calls := by
  have split : Spares = fun e b => ∀ r, SparesReason r e b := by
    funext e b
    simp [Spares, SparesReason]
  rw [split]
  exact Machine.Along.forall_iff

end Calls

/-- The map stays within its cap, and every key counts exactly the calls with its reason
since it was admitted if and only if no call brings a known reason to a full map. -/
theorem block_stats_exact_iff (e : Engine) (calls : List Blocked) (empty : e.blockStats = ∅) :
    len (after e calls).blockStats ≤ maxBlockStatsReasons ∧
    ((∀ r n, (after e calls).blockStats.lookup r = some n →
        n = callsWith r (sinceAdmitted r e calls)) ↔
      recorder.Along Spares e calls) := by
  have unknown (r : Text) : r ∉ e.blockStats := by
    rw [empty]
    exact AList.notMem_empty r
  have total (r : Text) :
      ((after e calls).blockStats.lookup r).getD 0 = (counted r e calls : Int) := by
    rw [getD_after, AList.lookup_eq_none.mpr (unknown r), Option.getD_none, zero_add]
  refine ⟨after_len_le_max (by rw [empty]; exact Nat.zero_le _), ?_⟩
  rw [spares_iff]
  constructor
  · intro exact r
    apply (counted_fresh_iff (unknown r)).mp
    cases found : (after e calls).blockStats.lookup r with
    | none =>
        have nothing := total r
        rw [found, Option.getD_none] at nothing
        rw [sinceAdmitted_unknown (AList.lookup_eq_none.mp found)]
        exact_mod_cast nothing.symm
    | some n =>
        have all := total r
        rw [found, Option.getD_some, exact r n found] at all
        exact_mod_cast all.symm
  · intro spared r n found
    have all := total r
    rw [found, Option.getD_some, (counted_fresh_iff (unknown r)).mpr (spared r)] at all
    exact all

def somePacket : PacketInfo where
  srcMAC := ""
  dstMAC := ""
  srcIP := "10.0.1.100"
  dstIP := "10.0.2.50"
  protocol := "TCP"
  srcPort := 44001
  dstPort := 22
  tcpFlags := TCPFlags.none
  icmpType := none
  icmpCode := none
  fragment := FragmentInfo.none
  packetSize := 40
  ipv6ExtHeaders := []

def blockFor (reason : Text) : Blocked := ⟨0, somePacket, reason, ""⟩

def plainEngine : Engine :=
  new true none none false false false false false none false none

theorem two_reasons_exact :
    len (after plainEngine [blockFor [1], blockFor [2], blockFor [1]]).blockStats ≤
        maxBlockStatsReasons ∧
      ∀ r n, (after plainEngine [blockFor [1], blockFor [2], blockFor [1]]).blockStats.lookup r =
        some n → n = callsWith r
          (sinceAdmitted r plainEngine [blockFor [1], blockFor [2], blockFor [1]]) :=
  have exact_iff := block_stats_exact_iff plainEngine
    [blockFor [1], blockFor [2], blockFor [1]] rfl
  ⟨exact_iff.1, exact_iff.2.mpr (by decide +kernel)⟩

def byteReasons (n : Nat) : List Blocked := (List.range n).map fun i => blockFor [UInt8.ofNat i]

/-- As many one-byte reasons as the map holds, and the first one again. -/
def reasonFlood : List Blocked := byteReasons 256 ++ [blockFor [0]]

private theorem after_snoc_record (e : Engine) (calls : List Blocked) (b : Blocked) :
    after e (calls ++ [b]) = record (after e calls) b :=
  List.foldl_append ..

private theorem after_byteReasons {n : Nat} (few : n ≤ 256) :
    len (after plainEngine (byteReasons n)).blockStats = n ∧
      ∀ i < 256, (after plainEngine (byteReasons n)).blockStats.lookup [UInt8.ofNat i] =
        if i < n then some 1 else none := by
  induction n with
  | zero => exact ⟨rfl, fun i _ => rfl⟩
  | succ n ih =>
      obtain ⟨size, found⟩ := ih (by omega)
      have room : ¬ full (after plainEngine (byteReasons n)) := by
        rw [full, size, maxBlockStatsReasons]
        omega
      have absent := found n (by omega)
      rw [if_neg (Nat.lt_irrefl n)] at absent
      have key : (blockFor [UInt8.ofNat n]).key = [UInt8.ofNat n] := rfl
      have last : byteReasons (n + 1) = byteReasons n ++ [blockFor [UInt8.ofNat n]] := by
        rw [byteReasons, List.range_succ, List.map_append]
        rfl
      rw [last, after_snoc_record, record_of_room room, key, absent]
      constructor
      · rw [len_insert_new (AList.lookup_eq_none.mp absent), size]
      · intro i small
        rw [lookup_insert_eq, found i small]
        by_cases same : i = n
        · subst same
          simp
        · have differ : [UInt8.ofNat i] ≠ [UInt8.ofNat n] := by
            intro equal
            have values := congrArg UInt8.toNat (List.cons.inj equal).1
            rw [UInt8.toNat_ofNat', UInt8.toNat_ofNat'] at values
            omega
          rw [if_neg differ]
          exact if_congr (by omega) rfl rfl

theorem flooded_reason_undercounted :
    (after plainEngine reasonFlood).blockStats.lookup [0] = some 1 ∧
      callsWith [0] (sinceAdmitted [0] plainEngine reasonFlood) = 2 := by
  obtain ⟨size, found⟩ := after_byteReasons (Nat.le_refl 256)
  constructor
  · rw [reasonFlood, after_snoc_record, record_of_full size.ge]
    exact found 0 (by omega)
  · have first : reasonFlood = blockFor [0] ::
        ((List.range 255).map Nat.succ).map (fun i => blockFor [UInt8.ofNat i]) ++
          [blockFor [0]] := by
      rw [reasonFlood, byteReasons, List.range_succ_eq_map]
      rfl
    rw [first, List.cons_append, sinceAdmitted, if_pos (by decide)]
    decide +kernel

end L3Firewall.Pipeline.BlockStats
