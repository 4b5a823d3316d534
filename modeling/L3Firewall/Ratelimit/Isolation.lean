/- Ratelimit/Isolation
   source: internal/ratelimit/ratelimit.go
   digest: The rates of a source or of one of its ports depend on its own packets only. -/

import L3Firewall.Foundation.Decimal
import L3Firewall.Foundation.Runs
import L3Firewall.Net.RoundTrip
import L3Firewall.Ratelimit.Spacing

set_option autoImplicit false
set_option relaxedAutoImplicit false

namespace L3Firewall.Ratelimit.Isolation

open Foundation.Decimal (isDigit_of_mem_repr toList_repr_inj)
open Foundation.FiniteMap
open Foundation.Runs
open Net.Address (normalizeIP)
open Net.RoundTrip (SameAddress normalizeIP_eq_iff)
open Conntrack.FlowTable (Time Duration)
open Buckets
open Spacing (evictOneSampledLocked_lookup)

section Keys

/-- One source: the same string, or another spelling of the same address. -/
def Spelling (s ip : String) : Prop := ip = s ∨ SameAddress ip s

theorem spelling_iff (s ip : String) : Spelling s ip ↔ normalizeIP ip = normalizeIP s :=
  (normalizeIP_eq_iff ip s).symm

instance (s ip : String) : Decidable (Spelling s ip) :=
  decidable_of_iff (normalizeIP ip = normalizeIP s) (spelling_iff s ip).symm

theorem ipKey_inj {s ip : String} : ipKey ip = ipKey s ↔ Spelling s ip := by
  rw [spelling_iff]
  constructor
  · intro same
    have lists := congrArg String.toList same
    simp only [ipKey, String.toList_append, List.append_cancel_left_eq] at lists
    exact String.toList_injective lists
  · intro same
    rw [ipKey, ipKey, same]

private theorem split_at_last {a b d e : List Char} {c : Char} (same : a ++ c :: d = b ++ c :: e)
    (clear : c ∉ d) (clear' : c ∉ e) : a = b ∧ d = e := by
  rcases List.append_eq_append_iff.mp same with ⟨between, left, right⟩ | ⟨between, left, right⟩
  · cases between with
    | nil =>
        rw [List.append_nil] at left
        exact ⟨left.symm, (List.cons.inj right).2⟩
    | cons x between =>
        obtain ⟨-, tail⟩ := List.cons.inj right
        exact absurd (tail ▸ List.mem_append_right _ List.mem_cons_self) clear
  · cases between with
    | nil =>
        rw [List.append_nil] at left
        exact ⟨left, (List.cons.inj right).2.symm⟩
    | cons x between =>
        obtain ⟨-, tail⟩ := List.cons.inj right
        exact absurd (tail ▸ List.mem_append_right _ List.mem_cons_self) clear'

private theorem colon_not_mem_repr (n : Nat) : ':' ∉ (Nat.repr n).toList := by
  intro member
  exact absurd (isDigit_of_mem_repr member) (by decide)

theorem portKey_inj {s ip : String} {p q : UInt16} :
    portKey ip q = portKey s p ↔ Spelling s ip ∧ q = p := by
  rw [spelling_iff]
  constructor
  · intro same
    have lists := congrArg String.toList same
    simp only [portKey, String.toList_append, List.append_assoc,
      List.append_cancel_left_eq] at lists
    obtain ⟨address, port⟩ :=
      split_at_last lists (colon_not_mem_repr _) (colon_not_mem_repr _)
    exact ⟨String.toList_injective address, UInt16.toNat_inj.mp (toList_repr_inj port)⟩
  · rintro ⟨same, rfl⟩
    rw [portKey, portKey, same]

theorem ipKey_ne_portKey (ip s : String) (p : UInt16) : ipKey ip ≠ portKey s p := by
  intro same
  have first := congrArg (fun k : String => k.toList.head?) same
  simp [ipKey, portKey] at first

end Keys

section Calls

/-- The calls that change a limiter, with their clock readings and iteration orders. -/
inductive Op
  | allow (o : BucketOrder) (ip : String) (packetSize : Nat) (now : Time)
  | allowPort (o : BucketOrder) (ip : String) (dstPort : UInt16) (packetSize : Nat) (now : Time)
  | cleanup (idleThreshold : Duration) (now : Time)

/-- The limiter after a call, and the rates that it returns. -/
def perform (l : Limiter) : Op → Option (ℚ × ℚ) × Limiter
  | .allow o ip packetSize now =>
      (some (l.Allow o ip packetSize now).1, (l.Allow o ip packetSize now).2)
  | .allowPort o ip dstPort packetSize now =>
      (some (l.AllowPort o ip dstPort packetSize now).1,
        (l.AllowPort o ip dstPort packetSize now).2)
  | .cleanup idleThreshold now => (none, (l.Cleanup idleThreshold now).2)

/-- What has a bucket of its own: a source, or a source and a port. -/
inductive Subject
  | source (s : String)
  | port (s : String) (p : UInt16)

def Subject.key : Subject → String
  | .source s => ipKey s
  | .port s p => portKey s p

/-- The time and the size of a packet of the subject. -/
def Subject.packet : Subject → Op → Option (Time × Nat)
  | .source s, .allow _ ip packetSize now => if Spelling s ip then some (now, packetSize) else none
  | .port s p, .allowPort _ ip dstPort packetSize now =>
      if Spelling s ip ∧ dstPort = p then some (now, packetSize) else none
  | _, _ => none

def packets (x : Subject) (ops : List Op) : List (Time × Nat) := ops.filterMap x.packet

/-- The rates returned for the packets of a subject in a run. -/
def rates (x : Subject) : Limiter → List Op → List (ℚ × ℚ)
  | _, [] => []
  | l, op :: ops =>
      if (x.packet op).isSome then (perform l op).1.toList ++ rates x (perform l op).2 ops
      else rates x (perform l op).2 ops

def limiting (ppsLimit bpsLimit : ℚ) : Machine Limiter Op where
  init l := l = newLimiter ppsLimit bpsLimit
  next l op := some (perform l op).2

/-- A call that does not remove the bucket of a key. -/
def Keeps (key : String) (l : Limiter) (op : Op) : Prop :=
  key ∈ l.buckets → key ∈ (perform l op).2.buckets

end Calls

section Steps

variable {l : Limiter} {key : String}

/-- The rates of a subject from its own packets: its bucket is updated with one after the
other. -/
def trace (l : Limiter) : Option RateBucket → List (Time × Nat) → List (ℚ × ℚ)
  | _, [] => []
  | b, (now, packetSize) :: rest =>
      let b' := l.updateBucket (b.getD ⟨0, 0, now⟩) packetSize now
      (b'.pps, b'.bps) :: trace l (some b') rest

theorem updateBucket_congr {l' : Limiter} (same : l'.alpha = l.alpha) (b : RateBucket)
    (packetSize : Nat) (now : Time) :
    l'.updateBucket b packetSize now = l.updateBucket b packetSize now := by
  unfold Limiter.updateBucket
  rw [same]

theorem track_spec (l : Limiter) (o : BucketOrder) (key : String) (packetSize : Nat) (now : Time) :
    let b := l.updateBucket ((l.buckets.lookup key).getD ⟨0, 0, now⟩) packetSize now
    (l.track o key packetSize now).1 = (b.pps, b.bps) ∧
      (l.track o key packetSize now).2.alpha = l.alpha ∧
      (l.track o key packetSize now).2.buckets.lookup key = some b ∧
      ∀ k b', k ≠ key → (l.track o key packetSize now).2.buckets.lookup k = some b' →
        l.buckets.lookup k = some b' := by
  have evicted : (l.evictOneSampledLocked o).alpha = l.alpha := by
    unfold Limiter.evictOneSampledLocked
    split <;> rfl
  unfold Limiter.track Limiter.getOrCreateBucket
  cases found : l.buckets.lookup key with
  | some b =>
      refine ⟨rfl, rfl, AList.lookup_insert _, fun k b' other there => ?_⟩
      dsimp only at there
      rw [lookup_insert_eq, if_neg other] at there
      exact there
  | none =>
      dsimp only
      split
      · rw [updateBucket_congr evicted]
        refine ⟨rfl, evicted, AList.lookup_insert _, fun k b' other there => ?_⟩
        rw [lookup_insert_eq, if_neg other] at there
        exact evictOneSampledLocked_lookup there
      · refine ⟨rfl, rfl, AList.lookup_insert _, fun k b' other there => ?_⟩
        rw [lookup_insert_eq, if_neg other] at there
        exact there

private theorem foldl_erase_lookup {keys : List String} {m : FMap String RateBucket}
    {b : RateBucket} (found : (keys.foldl (fun m k => m.erase k) m).lookup key = some b) :
    m.lookup key = some b := by
  induction keys generalizing m with
  | nil => exact found
  | cons k keys ih =>
      have kept := ih found
      rw [lookup_erase_eq] at kept
      split at kept
      · exact absurd kept (by simp)
      · exact kept

private theorem perform_cases (l : Limiter) (x : Subject) (op : Op) :
    (∃ o packetSize now, x.packet op = some (now, packetSize) ∧
      perform l op = (some (l.track o x.key packetSize now).1,
        (l.track o x.key packetSize now).2)) ∨
    x.packet op = none ∧ ∀ b, (perform l op).2.buckets.lookup x.key = some b →
      l.buckets.lookup x.key = some b := by
  cases op with
  | allow o ip size time =>
      cases x with
      | source s =>
          by_cases spelled : Spelling s ip
          · refine .inl ⟨o, size, time, if_pos spelled, ?_⟩
            rw [perform, Limiter.Allow, ipKey_inj.mpr spelled]
            rfl
          · refine .inr ⟨if_neg spelled, fun b => (track_spec l o _ size time).2.2.2 _ b ?_⟩
            exact fun same => spelled (ipKey_inj.mp same.symm)
      | port s p =>
          refine .inr ⟨rfl, fun b => (track_spec l o _ size time).2.2.2 _ b ?_⟩
          exact (ipKey_ne_portKey ip s p).symm
  | allowPort o ip dstPort size time =>
      cases x with
      | source s =>
          refine .inr ⟨rfl, fun b => (track_spec l o _ size time).2.2.2 _ b ?_⟩
          exact ipKey_ne_portKey s ip dstPort
      | port s p =>
          by_cases spelled : Spelling s ip ∧ dstPort = p
          · refine .inl ⟨o, size, time, if_pos spelled, ?_⟩
            rw [perform, Limiter.AllowPort, portKey_inj.mpr spelled]
            rfl
          · refine .inr ⟨if_neg spelled, fun b => (track_spec l o _ size time).2.2.2 _ b ?_⟩
            exact fun same => spelled (portKey_inj.mp same.symm)
  | cleanup idleThreshold time =>
      refine .inr ⟨?_, fun b => foldl_erase_lookup⟩
      cases x with
      | source s => rfl
      | port s p => rfl

private theorem perform_packet {x : Subject} {op : Op} {now : Time} {packetSize : Nat}
    (own : x.packet op = some (now, packetSize)) :
    let b := l.updateBucket ((l.buckets.lookup x.key).getD ⟨0, 0, now⟩) packetSize now
    (perform l op).1 = some (b.pps, b.bps) ∧ (perform l op).2.buckets.lookup x.key = some b := by
  rcases perform_cases l x op with ⟨o, size, time, packet, tracked⟩ | ⟨none_given, -⟩
  · obtain ⟨rfl, rfl⟩ := Prod.mk.inj (Option.some.inj (packet.symm.trans own))
    obtain ⟨returned, -, stored, -⟩ := track_spec l o x.key size time
    rw [tracked]
    exact ⟨congrArg some returned, stored⟩
  · exact absurd (none_given.symm.trans own) (by simp)

private theorem perform_kept {x : Subject} {op : Op} (other : x.packet op = none)
    (kept : Keeps x.key l op) :
    (perform l op).2.buckets.lookup x.key = l.buckets.lookup x.key := by
  rcases perform_cases l x op with ⟨o, size, time, packet, -⟩ | ⟨-, unchanged⟩
  · exact absurd (packet.symm.trans other) (by simp)
  · cases after : (perform l op).2.buckets.lookup x.key with
    | some b => exact (unchanged b after).symm
    | none =>
        cases before : l.buckets.lookup x.key with
        | none => rfl
        | some b => exact absurd (kept (mem_of_lookup before)) (AList.lookup_eq_none.mp after)

private theorem perform_alpha (l : Limiter) (op : Op) : (perform l op).2.alpha = l.alpha := by
  cases op with
  | allow o ip size time => exact (track_spec l o (ipKey ip) size time).2.1
  | allowPort o ip dstPort size time => exact (track_spec l o (portKey ip dstPort) size time).2.1
  | cleanup idleThreshold time => rfl

theorem rates_eq_trace (x : Subject) {p b : ℚ} (l₀ : Limiter) (same : l.alpha = l₀.alpha)
    (ops : List Op) (kept : (limiting p b).Along (Keeps x.key) l ops) :
    rates x l ops = trace l₀ (l.buckets.lookup x.key) (packets x ops) := by
  induction ops generalizing l with
  | nil => rfl
  | cons op ops ih =>
      obtain ⟨now, later⟩ := kept
      have rest := ih ((perform_alpha l op).trans same) (later _ rfl)
      unfold rates packets
      rw [List.filterMap_cons]
      cases own : x.packet op with
      | none =>
          rw [perform_kept own now] at rest
          exact rest
      | some packet =>
          obtain ⟨time, size⟩ := packet
          obtain ⟨returned, stored⟩ := perform_packet (l := l) own
          rw [stored] at rest
          simp only [Option.isSome_some, if_true, returned, Option.toList_some, trace,
            List.cons_append, List.nil_append, rest, updateBucket_congr same]
          rfl

def Op.isPacket : Op → Bool
  | .allow .. | .allowPort .. => true
  | .cleanup .. => false

private theorem track_room (o : BucketOrder) (packetSize : Nat) (now : Time)
    (room : (len l.buckets : Int) < l.maxEntries) :
    (l.track o key packetSize now).2.maxEntries = l.maxEntries ∧
      len (l.track o key packetSize now).2.buckets ≤ len l.buckets + 1 ∧
      ∀ k, k ∈ l.buckets → k ∈ (l.track o key packetSize now).2.buckets := by
  have unfilled : ¬ (0 < l.maxEntries ∧ l.maxEntries ≤ len l.buckets) := by omega
  unfold Limiter.track Limiter.getOrCreateBucket
  cases found : l.buckets.lookup key with
  | some b =>
      exact ⟨rfl, len_insert_le _ _ _, fun k there => AList.mem_insert _ |>.mpr (.inr there)⟩
  | none =>
      dsimp only
      rw [if_neg unfilled]
      exact ⟨rfl, len_insert_le _ _ _, fun k there => AList.mem_insert _ |>.mpr (.inr there)⟩

theorem along_keeps_of_short {p b : ℚ} (ops : List Op) (packetsOnly : ops.all Op.isPacket = true)
    (short : (len l.buckets : Int) + ops.length ≤ l.maxEntries) (key : String) :
    (limiting p b).Along (Keeps key) l ops := by
  induction ops generalizing l with
  | nil => trivial
  | cons op ops ih =>
      rw [List.all_cons, Bool.and_eq_true] at packetsOnly
      rw [List.length_cons] at short
      have room : (len l.buckets : Int) < l.maxEntries := by omega
      have step : (perform l op).2.maxEntries = l.maxEntries ∧
          len (perform l op).2.buckets ≤ len l.buckets + 1 ∧
          ∀ k, k ∈ l.buckets → k ∈ (perform l op).2.buckets := by
        cases op with
        | allow o ip size time => exact track_room o size time room
        | allowPort o ip dstPort size time => exact track_room o size time room
        | cleanup idleThreshold time => exact absurd packetsOnly.1 (by simp [Op.isPacket])
      obtain ⟨capacity, grown, kept⟩ := step
      refine ⟨kept key, fun l' taken => ?_⟩
      obtain rfl := Option.some.inj taken
      exact ih packetsOnly.2 (by omega)

end Steps

/-- Isolation. In two runs of limiters that do not remove its bucket, a source, in whatever
spelling, or a source and a port, gets the same rates for the same packets, whatever else the
runs consist of. -/
theorem buckets_isolated (x : Subject) (p₁ b₁ p₂ b₂ : ℚ) (ops₁ ops₂ : List Op)
    (kept₁ : (limiting p₁ b₁).Along (Keeps x.key) (newLimiter p₁ b₁) ops₁)
    (kept₂ : (limiting p₂ b₂).Along (Keeps x.key) (newLimiter p₂ b₂) ops₂)
    (same : packets x ops₁ = packets x ops₂) :
    rates x (newLimiter p₁ b₁) ops₁ = rates x (newLimiter p₂ b₂) ops₂ := by
  have first := rates_eq_trace x (newLimiter p₁ b₁) rfl ops₁ kept₁
  have second := rates_eq_trace (l := newLimiter p₂ b₂) x (newLimiter p₁ b₁) rfl ops₂ kept₂
  have empty : (newLimiter p₁ b₁).buckets = (newLimiter p₂ b₂).buckets := rfl
  rw [first, second, same, empty]

/-- Two packets of one source, half a second apart. -/
def alone : List Op :=
  [.allow RangeOrder.stored "10.0.0.1" 100 0, .allow RangeOrder.stored "10.0.0.1" 60 500000000]

/-- The same two, the second in its mapped spelling, with another source and a port between
them. -/
def mixed : List Op :=
  [.allow RangeOrder.stored "10.0.0.1" 100 0, .allow RangeOrder.stored "10.0.0.2" 1500 1,
    .allowPort RangeOrder.stored "10.0.0.1" 53 100 2,
    .allow RangeOrder.stored "::ffff:10.0.0.1" 60 500000000]

theorem alone_mixed_rates :
    packets (.source "10.0.0.1") alone = packets (.source "10.0.0.1") mixed ∧
      rates (.source "10.0.0.1") (newLimiter 5 0) alone =
        rates (.source "10.0.0.1") (newLimiter 0 1000) mixed := by
  have same : packets (.source "10.0.0.1") alone = packets (.source "10.0.0.1") mixed := by decide
  exact ⟨same, buckets_isolated (.source "10.0.0.1") 5 0 0 1000 alone mixed
    (along_keeps_of_short alone rfl (by decide) _) (along_keeps_of_short mixed rfl (by decide) _)
    same⟩

end L3Firewall.Ratelimit.Isolation
