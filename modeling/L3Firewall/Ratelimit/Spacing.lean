/- Ratelimit/Spacing
   source: internal/ratelimit/ratelimit.go
   digest: Packets that keep their distance never drive a rate above it. -/

import L3Firewall.Ratelimit.Buckets
import Mathlib.Algebra.Order.Field.Rat
import Mathlib.Tactic.Linarith
import Mathlib.Tactic.Positivity

set_option autoImplicit false
set_option relaxedAutoImplicit false

namespace L3Firewall.Ratelimit.Spacing

open Foundation.FiniteMap
open Conntrack.FlowTable (Time)
open Buckets

variable {l : Limiter} {rate : ℚ} {gap now : Nat}

private theorem elapsedSeconds_ge {last : Nat} (positive : 0 < gap) (apart : last + gap ≤ now) :
    (gap : ℚ) / 1000000000 ≤ elapsedSeconds now last := by
  have distance : (gap : ℚ) ≤ (((now : Int) - last : Int) : ℚ) := by
    have integral : (gap : Int) ≤ (now : Int) - last := by omega
    exact_mod_cast integral
  have moved : (0 : ℚ) < gap := by exact_mod_cast positive
  have passes : ¬ (((now : Int) - last : Int) : ℚ) / 1000000000 ≤ 0 := by
    rw [not_le]
    exact div_pos (lt_of_lt_of_le moved distance) (by norm_num)
  unfold elapsedSeconds
  simp only [if_neg passes]
  exact div_le_div_of_nonneg_right distance (by norm_num)

private theorem cap_le {cap q : ℚ} (below : q ≤ rate) : (if cap < q then cap else q) ≤ rate := by
  split
  · next above => exact above.le.trans below
  · exact below

private theorem updateBucket_le {b : RateBucket} {size : Nat} (lower : 0 ≤ l.alpha)
    (upper : l.alpha ≤ 1)
    (one : 1 ≤ rate) (old : b.pps ≤ rate)
    (slow : b.pps = 0 ∨ 1 / elapsedSeconds now b.lastTime ≤ rate) :
    (l.updateBucket b size now).pps ≤ rate := by
  have average : (if b.pps = 0 then 1 else
      l.alpha * (1 / elapsedSeconds now b.lastTime) + (1 - l.alpha) * b.pps) ≤ rate := by
    split
    · exact one
    · next started =>
      have recent := mul_le_mul_of_nonneg_left (slow.resolve_left started) lower
      have past := mul_le_mul_of_nonneg_left old (sub_nonneg.mpr upper)
      linarith
  exact cap_le average

/-- Every bucket is below the rate and was last used a gap ago. -/
def Spaced (l : Limiter) (rate : ℚ) (gap : Nat) (now : Time) : Prop :=
  ∀ key b, l.buckets.lookup key = some b → b.pps ≤ rate ∧ b.lastTime + gap ≤ now

theorem evictOneSampledLocked_lookup {o : BucketOrder} {key : String} {b : RateBucket}
    (found : (l.evictOneSampledLocked o).buckets.lookup key = some b) :
    l.buckets.lookup key = some b := by
  unfold Limiter.evictOneSampledLocked at found
  split at found
  · exact found
  · dsimp only at found
    rw [lookup_erase_eq] at found
    split at found
    · exact absurd found nofun
    · exact found

theorem getOrCreateBucket_cases (l : Limiter) (o : BucketOrder) (key : String) (now : Time) :
    (l.buckets.lookup key = some (l.getOrCreateBucket o key now).1 ∨
      (l.getOrCreateBucket o key now).1.pps = 0) ∧
    (∀ k b, (l.getOrCreateBucket o key now).2.buckets.lookup k = some b →
      l.buckets.lookup k = some b) ∧
    (l.getOrCreateBucket o key now).2.alpha = l.alpha ∧
    (l.getOrCreateBucket o key now).2.ppsLimit = l.ppsLimit ∧
    (l.getOrCreateBucket o key now).2.bpsLimit = l.bpsLimit := by
  have evicted : (l.evictOneSampledLocked o).alpha = l.alpha ∧
      (l.evictOneSampledLocked o).ppsLimit = l.ppsLimit ∧
      (l.evictOneSampledLocked o).bpsLimit = l.bpsLimit := by
    unfold Limiter.evictOneSampledLocked
    split <;> exact ⟨rfl, rfl, rfl⟩
  unfold Limiter.getOrCreateBucket
  cases found : l.buckets.lookup key with
  | some b => exact ⟨.inl rfl, fun k b found => found, rfl, rfl, rfl⟩
  | none =>
      refine ⟨.inr rfl, ?_⟩
      dsimp only
      split
      · exact ⟨fun k b found => evictOneSampledLocked_lookup found, evicted⟩
      · exact ⟨fun k b found => found, rfl, rfl, rfl⟩

theorem track_spaced (o : BucketOrder) (key : String) (size : Nat) (lower : 0 ≤ l.alpha)
    (upper : l.alpha ≤ 1) (one : 1 ≤ rate) (positive : 0 < gap)
    (enough : 1000000000 ≤ rate * gap) (spaced : Spaced l rate gap now) :
    (l.track o key size now).1.1 ≤ rate ∧
      Spaced (l.track o key size now).2 rate gap (now + gap) ∧
      (l.track o key size now).2.alpha = l.alpha ∧
      (l.track o key size now).2.ppsLimit = l.ppsLimit ∧
      (l.track o key size now).2.bpsLimit = l.bpsLimit := by
  obtain ⟨origin, kept, alpha, limits⟩ := getOrCreateBucket_cases l o key now
  have bounded : ((l.getOrCreateBucket o key now).2.updateBucket
      (l.getOrCreateBucket o key now).1 size now).pps ≤ rate := by
    have old : (l.getOrCreateBucket o key now).1.pps ≤ rate := by
      rcases origin with found | fresh
      · exact (spaced key _ found).1
      · rw [fresh]
        linarith
    refine updateBucket_le (by rwa [alpha]) (by rwa [alpha]) one old ?_
    rcases origin with found | fresh
    · refine .inr ?_
      have moved : (0 : ℚ) < gap := by exact_mod_cast positive
      have passed := elapsedSeconds_ge positive (spaced key _ found).2
      have long : (0 : ℚ) < elapsedSeconds now (l.getOrCreateBucket o key now).1.lastTime :=
        lt_of_lt_of_le (by positivity) passed
      rw [div_le_iff₀ long]
      calc (1 : ℚ) ≤ rate * ((gap : ℚ) / 1000000000) := by
            rw [← mul_div_assoc, le_div_iff₀ (by norm_num)]
            linarith
        _ ≤ rate * elapsedSeconds now (l.getOrCreateBucket o key now).1.lastTime :=
            mul_le_mul_of_nonneg_left passed (by linarith)
    · exact .inl fresh
  refine ⟨bounded, ?_, alpha, limits⟩
  intro k b found
  change (((l.getOrCreateBucket o key now).2.buckets.insert key _).lookup k) = some b at found
  rw [lookup_insert_eq] at found
  split at found
  · obtain rfl := Option.some.inj found
    exact ⟨bounded, le_rfl⟩
  · obtain ⟨below, apart⟩ := spaced k b (kept k b found)
    exact ⟨below, apart.trans (Nat.le_add_right now gap)⟩

theorem newLimiter_spaced (ppsLimit bpsLimit : ℚ) (rate : ℚ) (gap : Nat) (now : Time) :
    Spaced (newLimiter ppsLimit bpsLimit) rate gap now := by
  intro key b found
  rw [show (newLimiter ppsLimit bpsLimit).buckets.lookup key = none from AList.lookup_empty key]
    at found
  exact absurd found nofun

end L3Firewall.Ratelimit.Spacing
