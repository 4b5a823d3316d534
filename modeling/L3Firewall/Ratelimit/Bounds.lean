/- Ratelimit/Bounds
   source: internal/ratelimit/ratelimit.go
   digest: A slow source stays within its limit, and a fast one exceeds it for good. -/

import L3Firewall.Ratelimit.Isolation
import Mathlib.Algebra.Order.Archimedean.Basic
import Mathlib.Tactic.Ring

set_option autoImplicit false
set_option relaxedAutoImplicit false

namespace L3Firewall.Ratelimit.Bounds

open Foundation.FiniteMap
open Foundation.Runs
open Conntrack.FlowTable (Time)
open Buckets Isolation
open Spacing (getOrCreateBucket_cases)

section Packet

variable {l : Limiter} {b : RateBucket} {p q : Time × Nat}

def gap (p q : Time × Nat) : ℚ := (((q.1 : Int) - p.1 : Int) : ℚ) / 1000000000

private theorem gap_pos (later : p.1 < q.1) : 0 < gap p q := by
  have distance : (0 : ℚ) < (((q.1 : Int) - p.1 : Int) : ℚ) := by
    have integral : 0 < (q.1 : Int) - p.1 := Int.sub_pos.mpr (Int.ofNat_lt.mpr later)
    exact_mod_cast integral
  exact div_pos distance (by norm_num)

private theorem elapsedSeconds_eq_gap (later : p.1 < q.1) : elapsedSeconds q.1 p.1 = gap p q :=
  if_neg (not_le.mpr (gap_pos later))

/-- The rates of a bucket in use, one packet later. -/
structure Averaged (b b' : RateBucket) (p q : Time × Nat) : Prop where
  pps : b'.pps = min (10 ^ 12) (3 / 10 * (1 / gap p q) + 7 / 10 * b.pps)
  bps : b'.bps = min (10 ^ 15) (3 / 10 * (q.2 / gap p q) + 7 / 10 * b.bps)
  lastTime : b'.lastTime = q.1

private theorem capped_eq_min (cap r : ℚ) : (if cap < r then cap else r) = min cap r := by
  split
  · next above => exact (min_eq_left above.le).symm
  · next within => exact (min_eq_right (not_lt.mp within)).symm

private theorem updateBucket_first (l : Limiter) (packetSize : Nat) (now : Time) :
    l.updateBucket ⟨0, 0, now⟩ packetSize now = ⟨1, min (10 ^ 15) packetSize, now⟩ := by
  unfold Limiter.updateBucket
  simp only [if_true, capped_eq_min]
  rw [min_eq_right (by norm_num : (1 : ℚ) ≤ 10 ^ 12)]

private theorem updateBucket_averaged (alpha : l.alpha = 3 / 10) (started : 0 < b.pps)
    (last : b.lastTime = p.1) (later : p.1 < q.1) :
    Averaged b (l.updateBucket b q.2 q.1) p q := by
  have weight : (1 : ℚ) - 3 / 10 = 7 / 10 := by norm_num
  constructor
  · simp only [Limiter.updateBucket, capped_eq_min, if_neg started.ne', last,
      elapsedSeconds_eq_gap later, alpha, weight]
  · simp only [Limiter.updateBucket, capped_eq_min, if_neg started.ne', last,
      elapsedSeconds_eq_gap later, alpha, weight]
  · rfl

variable {b' : RateBucket} {rate : ℚ}

private theorem Averaged.pps_pos (next : Averaged b b' p q) (started : 0 < b.pps)
    (later : p.1 < q.1) :
    0 < b'.pps := by
  have recent : 0 < 1 / gap p q := one_div_pos.mpr (gap_pos later)
  rw [next.pps, lt_min_iff]
  exact ⟨by norm_num, by linarith⟩

private theorem Averaged.pps_le (next : Averaged b b' p q) (old : b.pps ≤ rate)
    (recent : 1 / gap p q ≤ rate) : b'.pps ≤ rate := by
  rw [next.pps]
  exact (min_le_right _ _).trans (by linarith)

private theorem Averaged.le_pps (next : Averaged b b' p q) {missing : ℚ} (cap : rate ≤ 10 ^ 12)
    (short : 0 ≤ missing) (old : rate - missing ≤ b.pps) (recent : rate ≤ 1 / gap p q) :
    rate - missing * (7 / 10) ≤ b'.pps := by
  rw [next.pps, le_min_iff]
  exact ⟨by linarith, by linarith⟩

private theorem Averaged.bps_le (next : Averaged b b' p q) (old : b.bps ≤ rate)
    (recent : q.2 / gap p q ≤ rate) : b'.bps ≤ rate := by
  rw [next.bps]
  exact (min_le_right _ _).trans (by linarith)

end Packet

section Runs

variable {l : Limiter} {x : Subject} {ops : List Op} {ppsLimit bpsLimit : ℚ}

private theorem trace_length (l : Limiter) (b : Option RateBucket) (ps : List (Time × Nat)) :
    (trace l b ps).length = ps.length := by
  induction ps generalizing b with
  | nil => rfl
  | cons p ps ih => rw [trace, List.length_cons, List.length_cons, ih]

private theorem trace_invariant (holds : Nat → RateBucket → Prop)
    (apart : Time × Nat → Time × Nat → Prop)
    (step : ∀ n b p q, b.lastTime = p.1 → apart p q → holds n b →
      holds (n + 1) (l.updateBucket b q.2 q.1))
    {n : Nat} {b : RateBucket} {p : Time × Nat} (last : b.lastTime = p.1) (now : holds n b)
    (later : List (Time × Nat)) (spaced : (p :: later).IsChain apart) (k : Nat) (rate : ℚ × ℚ)
    (returned : ((b.pps, b.bps) :: trace l (some b) later)[k]? = some rate) :
    ∃ b', holds (n + k) b' ∧ rate = (b'.pps, b'.bps) := by
  induction later generalizing n b p k with
  | nil =>
      cases k with
      | zero => exact ⟨b, now, (Option.some.inj returned).symm⟩
      | succ k => exact absurd returned (by simp [trace])
  | cons q later ih =>
      cases k with
      | zero => exact ⟨b, now, (Option.some.inj returned).symm⟩
      | succ k =>
          obtain ⟨distance, rest⟩ := List.isChain_cons_cons.mp spaced
          have next := step n b p q last distance now
          obtain ⟨b', found, same⟩ := ih rfl next rest k returned
          exact ⟨b', by rwa [Nat.add_right_comm] at found, same⟩

private theorem rates_length (kept : (limiting ppsLimit bpsLimit).Along (Keeps x.key)
      (newLimiter ppsLimit bpsLimit) ops) :
    (rates x (newLimiter ppsLimit bpsLimit) ops).length = (packets x ops).length := by
  rw [rates_eq_trace x (newLimiter ppsLimit bpsLimit) rfl ops kept, trace_length]

private theorem rates_invariant (kept : (limiting ppsLimit bpsLimit).Along (Keeps x.key)
      (newLimiter ppsLimit bpsLimit) ops)
    (holds : Nat → RateBucket → Prop) (apart : Time × Nat → Time × Nat → Prop)
    (start : ∀ p ∈ (packets x ops).head?, holds 0 ⟨1, min (10 ^ 15) p.2, p.1⟩)
    (step : ∀ n b b' p q, p.1 < q.1 → apart p q → Averaged b b' p q → holds n b →
      holds (n + 1) b')
    (spaced : (packets x ops).IsChain fun p q => p.1 < q.1 ∧ apart p q) (k : Nat) (rate : ℚ × ℚ)
    (returned : (rates x (newLimiter ppsLimit bpsLimit) ops)[k]? = some rate) :
    ∃ b, holds k b ∧ rate = (b.pps, b.bps) := by
  have fresh : (newLimiter ppsLimit bpsLimit).buckets.lookup x.key = none := AList.lookup_empty _
  rw [rates_eq_trace x (newLimiter ppsLimit bpsLimit) rfl ops kept, fresh] at returned
  cases own : packets x ops with
  | nil =>
      rw [own] at returned
      exact absurd returned (by simp [trace])
  | cons p later =>
      rw [own] at returned start spaced
      rw [trace, Option.getD_none, updateBucket_first] at returned
      obtain ⟨b, ⟨-, found⟩, same⟩ := trace_invariant (l := newLimiter ppsLimit bpsLimit)
        (fun n b => 0 < b.pps ∧ holds n b) (fun p q => p.1 < q.1 ∧ apart p q)
        (fun n b p q last distance now =>
          have next := updateBucket_averaged rfl now.1 last distance.1
          ⟨next.pps_pos now.1 distance.1, step n b _ p q distance.1 distance.2 next now.2⟩)
        rfl ⟨by norm_num, start p rfl⟩ later spaced k rate returned
      exact ⟨b, by rwa [Nat.zero_add] at found, same⟩

/-- The verdicts on the packets of a subject in a run. -/
def verdicts (x : Subject) : Limiter → List Op → List Bool
  | _, [] => []
  | l, op :: ops =>
      if (x.packet op).isSome then
        ((perform l op).1.map fun rate => (perform l op).2.ExceedsLimit rate.1 rate.2).toList ++
          verdicts x (perform l op).2 ops
      else verdicts x (perform l op).2 ops

private theorem perform_limits (l : Limiter) (op : Op) :
    (perform l op).2.ppsLimit = l.ppsLimit ∧ (perform l op).2.bpsLimit = l.bpsLimit := by
  cases op with
  | allow o ip size time => exact (getOrCreateBucket_cases l o (ipKey ip) time).2.2.2
  | allowPort o ip dstPort size time =>
      exact (getOrCreateBucket_cases l o (portKey ip dstPort) time).2.2.2
  | cleanup idleThreshold time => exact ⟨rfl, rfl⟩

private theorem ExceedsLimit_congr {l' : Limiter}
    (same : l'.ppsLimit = l.ppsLimit ∧ l'.bpsLimit = l.bpsLimit) :
    l'.ExceedsLimit = l.ExceedsLimit := by
  funext pps bps
  rw [Limiter.ExceedsLimit, Limiter.ExceedsLimit, same.1, same.2]

private theorem verdicts_eq (x : Subject) (l : Limiter) (ops : List Op) :
    verdicts x l ops = (rates x l ops).map fun rate => l.ExceedsLimit rate.1 rate.2 := by
  induction ops generalizing l with
  | nil => rfl
  | cons op ops ih =>
      have rest := ih (perform l op).2
      rw [ExceedsLimit_congr (perform_limits l op)] at rest
      rw [verdicts, rates, ExceedsLimit_congr (perform_limits l op), rest]
      split
      · cases (perform l op).1 with
        | none => rfl
        | some rate => rfl
      · rfl

end Runs

section Source

variable {s : String} {ops : List Op} {limit bpsLimit rate : ℚ}

private theorem slow_within (kept : (limiting limit bpsLimit).Along (Keeps (ipKey s))
      (newLimiter limit bpsLimit) ops) (one : 1 ≤ limit)
    (slow : (packets (.source s) ops).IsChain fun p q => p.1 < q.1 ∧ 1 / limit ≤ gap p q) :
    ∀ r ∈ rates (.source s) (newLimiter limit bpsLimit) ops, r.1 ≤ limit := by
  intro r returned
  obtain ⟨k, found⟩ := List.mem_iff_getElem?.mp returned
  obtain ⟨b, below, rfl⟩ := rates_invariant (x := .source s) kept (fun _ b => b.pps ≤ limit)
    (fun p q => 1 / limit ≤ gap p q) (fun p _ => one)
    (fun n b b' p q later distance next below =>
      next.pps_le below ((one_div_le (gap_pos later) (by linarith)).mpr distance))
    slow k r found
  exact below

private theorem fast_above (kept : (limiting limit bpsLimit).Along (Keeps (ipKey s))
      (newLimiter limit bpsLimit) ops) (one : 1 ≤ rate) (cap : rate ≤ 10 ^ 12)
    (fast : (packets (.source s) ops).IsChain fun p q => p.1 < q.1 ∧ gap p q ≤ 1 / rate)
    {n : Nat} {r : ℚ × ℚ}
    (returned : (rates (.source s) (newLimiter limit bpsLimit) ops)[n]? = some r) :
    rate - (rate - 1) * (7 / 10) ^ n ≤ r.1 := by
  obtain ⟨b, above, rfl⟩ := rates_invariant (x := .source s) kept
    (fun n b => rate - (rate - 1) * (7 / 10) ^ n ≤ b.pps) (fun p q => gap p q ≤ 1 / rate)
    (fun p _ => by rw [pow_zero, mul_one, sub_sub_cancel])
    (fun n b b' p q later distance next above => by
      rw [pow_succ, ← mul_assoc]
      refine next.le_pps cap ?_ above ((le_one_div (by linarith) (gap_pos later)).mpr distance)
      exact mul_nonneg (by linarith) (by positivity))
    fast n r returned
  exact above

private theorem bytes_within (kept : (limiting limit bpsLimit).Along (Keeps (ipKey s))
      (newLimiter limit bpsLimit) ops)
    (first : ∀ p ∈ (packets (.source s) ops).head?, (p.2 : ℚ) ≤ rate)
    (small : (packets (.source s) ops).IsChain fun p q => p.1 < q.1 ∧ (q.2 : ℚ) ≤ rate * gap p q) :
    ∀ r ∈ rates (.source s) (newLimiter limit bpsLimit) ops, r.2 ≤ rate := by
  intro r returned
  obtain ⟨k, found⟩ := List.mem_iff_getElem?.mp returned
  obtain ⟨b, below, rfl⟩ := rates_invariant (x := .source s) kept (fun _ b => b.bps ≤ rate)
    (fun p q => (q.2 : ℚ) ≤ rate * gap p q)
    (fun p there => (min_le_right _ _).trans (first p there))
    (fun n b b' p q later distance next below =>
      next.bps_le below ((div_le_iff₀ (gap_pos later)).mpr distance))
    small k r found
  exact below

private theorem margin_reached (one : 1 ≤ limit) (above : limit < rate) :
    ∃ n : Nat, (rate - 1) * (7 / 10) ^ n < rate - limit := by
  have positive : 0 < rate - 1 := by linarith
  have margin : 0 < (rate - limit) / (rate - 1) := div_pos (sub_pos.mpr above) positive
  obtain ⟨n, small⟩ := exists_pow_lt_of_lt_one margin (by norm_num : (7 / 10 : ℚ) < 1)
  exact ⟨n, (lt_div_iff₀' positive).mp small⟩

private theorem margin_kept (one : 1 ≤ rate) {n m : Nat} (later : n ≤ m)
    (close : (rate - 1) * (7 / 10) ^ n < rate - limit) :
    (rate - 1) * (7 / 10) ^ m < rate - limit := by
  have shrunk : ((7 : ℚ) / 10) ^ m ≤ (7 / 10) ^ n :=
    pow_le_pow_of_le_one (by norm_num) (by norm_num) later
  exact (mul_le_mul_of_nonneg_left shrunk (by linarith)).trans_lt close

end Source

/-- Rates. In every run that keeps the bucket of a source, with its packets at increasing times:
gaps of at least the inverse of the limit keep the packet rate within it; gaps of at most the
inverse of a rate above the limit bring the packet rate near that rate, and from then on every
packet exceeds the limit; and packets within a byte rate keep the byte rate within it. -/
theorem rates_follow_gaps (s : String) (limit bpsLimit : ℚ) (one : 1 ≤ limit) (ops : List Op)
    (kept : (limiting limit bpsLimit).Along (Keeps (ipKey s)) (newLimiter limit bpsLimit) ops) :
    (rates (.source s) (newLimiter limit bpsLimit) ops).length =
      (packets (.source s) ops).length ∧
    ((packets (.source s) ops).IsChain (fun p q => p.1 < q.1 ∧ 1 / limit ≤ gap p q) →
      ∀ r ∈ rates (.source s) (newLimiter limit bpsLimit) ops, r.1 ≤ limit) ∧
    (∀ rate, limit < rate → rate ≤ 10 ^ 12 →
      (packets (.source s) ops).IsChain (fun p q => p.1 < q.1 ∧ gap p q ≤ 1 / rate) →
      (∀ n r, (rates (.source s) (newLimiter limit bpsLimit) ops)[n]? = some r →
        rate - (rate - 1) * (7 / 10) ^ n ≤ r.1) ∧
      (∀ n, (rate - 1) * (7 / 10) ^ n < rate - limit → ∀ m, n ≤ m →
        m < (packets (.source s) ops).length →
        (verdicts (.source s) (newLimiter limit bpsLimit) ops)[m]? = some true) ∧
      ∃ n, (rate - 1) * (7 / 10) ^ n < rate - limit) ∧
    (∀ rate, (∀ p ∈ (packets (.source s) ops).head?, (p.2 : ℚ) ≤ rate) →
      (packets (.source s) ops).IsChain (fun p q => p.1 < q.1 ∧ (q.2 : ℚ) ≤ rate * gap p q) →
      ∀ r ∈ rates (.source s) (newLimiter limit bpsLimit) ops, r.2 ≤ rate) := by
  have answered := rates_length (x := .source s) kept
  refine ⟨answered, slow_within kept one,
    fun rate above cap fast => ⟨?_, ?_, margin_reached one above⟩,
    fun rate first small => bytes_within kept first small⟩
  · intro n r returned
    exact fast_above kept (by linarith) cap fast returned
  · intro n close m later seen
    obtain ⟨r, returned⟩ : ∃ r, (rates (.source s) (newLimiter limit bpsLimit) ops)[m]? = some r :=
      ⟨_, List.getElem?_eq_getElem (answered ▸ seen)⟩
    have reached := fast_above kept (by linarith) cap fast returned
    have near := margin_kept (by linarith) later close
    have exceeded : 0 < limit ∧ limit < r.1 := ⟨by linarith, by linarith⟩
    have verdict : (newLimiter limit bpsLimit).ExceedsLimit r.1 r.2 = true := by
      rw [Limiter.ExceedsLimit, Bool.or_eq_true, decide_eq_true_eq]
      exact .inl exceeded
    rw [verdicts_eq, List.getElem?_map, returned, Option.map_some, verdict]

/-- Two packets of 60 bytes from one source, some nanoseconds apart. -/
def twoPackets (nanoseconds : Nat) : List Op :=
  [.allow RangeOrder.stored "10.0.0.1" 60 0, .allow RangeOrder.stored "10.0.0.1" 60 nanoseconds]

private theorem twoPackets_kept (nanoseconds : Nat) :
    (limiting 1 0).Along (Keeps (ipKey "10.0.0.1"))
      (newLimiter 1 0) (twoPackets nanoseconds) := by
  refine along_keeps_of_short (twoPackets nanoseconds) rfl ?_ _
  change (0 : Int) + 2 ≤ 100000
  decide

private theorem twoPackets_packets (nanoseconds : Nat) :
    packets (.source "10.0.0.1") (twoPackets nanoseconds) = [(0, 60), (nanoseconds, 60)] := by
  have same : Spelling "10.0.0.1" "10.0.0.1" := .inl rfl
  simp [packets, twoPackets, Subject.packet, same]

/-- A second apart the two are within a limit of one packet a second and of sixty bytes, and
half a second apart the second one exceeds it. -/
theorem twoPackets_followed :
    (∀ r ∈ rates (.source "10.0.0.1") (newLimiter 1 0) (twoPackets 1000000000),
        r.1 ≤ 1 ∧ r.2 ≤ 60) ∧
      (verdicts (.source "10.0.0.1") (newLimiter 1 0) (twoPackets 500000000))[1]? = some true := by
  have slow := rates_follow_gaps "10.0.0.1" 1 0 le_rfl (twoPackets 1000000000)
    (twoPackets_kept 1000000000)
  have fast := rates_follow_gaps "10.0.0.1" 1 0 le_rfl (twoPackets 500000000)
    (twoPackets_kept 500000000)
  rw [twoPackets_packets] at slow fast
  constructor
  · intro r returned
    exact ⟨slow.2.1 (by simp [gap]) r returned,
      slow.2.2.2 60 (by simp) (by simp [gap]) r returned⟩
  · exact (fast.2.2.1 2 (by norm_num) (by norm_num) (by norm_num [gap])).2.1 1 (by norm_num) 1
      le_rfl (by simp)

end L3Firewall.Ratelimit.Bounds
