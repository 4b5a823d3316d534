/- Ratelimit/SourceView
   source: internal/ratelimit/ratelimit.go
   digest: The buckets of one source, and which calls can change them. -/

import L3Firewall.Ratelimit.Isolation

set_option autoImplicit false
set_option relaxedAutoImplicit false

namespace L3Firewall.Ratelimit.SourceView

open Foundation.FiniteMap
open Conntrack.FlowTable (Time Duration)
open Buckets
open Isolation

/-- The key of a bucket that a source has: its own, or that of one of its ports. -/
def Belongs (s key : String) : Prop := key = ipKey s ∨ ∃ p : UInt16, key = portKey s p

theorem belongs_ipKey {s ip : String} : Belongs s (ipKey ip) ↔ Spelling s ip := by
  constructor
  · rintro (same | ⟨p, same⟩)
    · exact ipKey_inj.mp same
    · exact absurd same (ipKey_ne_portKey ip s p)
  · exact fun spelled => .inl (ipKey_inj.mpr spelled)

theorem belongs_portKey {s ip : String} {q : UInt16} :
    Belongs s (portKey ip q) ↔ Spelling s ip := by
  constructor
  · rintro (same | ⟨p, same⟩)
    · exact absurd same.symm (ipKey_ne_portKey s ip q)
    · exact (portKey_inj.mp same).1
  · exact fun spelled => .inr ⟨q, portKey_inj.mpr ⟨spelled, rfl⟩⟩

structure Alike (s : String) (l l' : Limiter) : Prop where
  ppsLimit : l.ppsLimit = l'.ppsLimit
  bpsLimit : l.bpsLimit = l'.bpsLimit
  alpha : l.alpha = l'.alpha
  buckets : ∀ key, Belongs s key → l.buckets.lookup key = l'.buckets.lookup key

def Spares (s : String) (l l' : Limiter) : Prop :=
  ∀ key, Belongs s key → key ∈ l.buckets → key ∈ l'.buckets

variable {s : String} {l l' m : Limiter}

theorem Alike.refl (s : String) (l : Limiter) : Alike s l l := ⟨rfl, rfl, rfl, fun _ _ => rfl⟩

theorem Alike.symm (alike : Alike s l l') : Alike s l' l :=
  ⟨alike.ppsLimit.symm, alike.bpsLimit.symm, alike.alpha.symm,
    fun key own => (alike.buckets key own).symm⟩

theorem Alike.trans (first : Alike s l m) (second : Alike s m l') : Alike s l l' :=
  ⟨first.ppsLimit.trans second.ppsLimit, first.bpsLimit.trans second.bpsLimit,
    first.alpha.trans second.alpha,
    fun key own => (first.buckets key own).trans (second.buckets key own)⟩

theorem exceedsLimit_alike (alike : Alike s l l') (pps bps : ℚ) :
    l.ExceedsLimit pps bps = l'.ExceedsLimit pps bps := by
  unfold Limiter.ExceedsLimit
  rw [alike.ppsLimit, alike.bpsLimit]

section Track

variable {o : BucketOrder} {key : String} {packetSize : Nat} {now : Time}

private theorem track_limits (l : Limiter) (o : BucketOrder) (key : String) (packetSize : Nat)
    (now : Time) : (l.track o key packetSize now).2.ppsLimit = l.ppsLimit ∧
      (l.track o key packetSize now).2.bpsLimit = l.bpsLimit := by
  have evicted : (l.evictOneSampledLocked o).ppsLimit = l.ppsLimit ∧
      (l.evictOneSampledLocked o).bpsLimit = l.bpsLimit := by
    unfold Limiter.evictOneSampledLocked
    split <;> exact ⟨rfl, rfl⟩
  unfold Limiter.track Limiter.getOrCreateBucket
  cases l.buckets.lookup key with
  | some b => exact ⟨rfl, rfl⟩
  | none =>
      dsimp only
      split
      · exact evicted
      · exact ⟨rfl, rfl⟩

private theorem track_kept {k : String} (other : k ≠ key)
    (kept : k ∈ l.buckets → k ∈ (l.track o key packetSize now).2.buckets) :
    (l.track o key packetSize now).2.buckets.lookup k = l.buckets.lookup k := by
  have unchanged := (track_spec l o key packetSize now).2.2.2 k
  cases after : (l.track o key packetSize now).2.buckets.lookup k with
  | some b => exact (unchanged b other after).symm
  | none =>
      cases before : l.buckets.lookup k with
      | none => rfl
      | some b => exact absurd (kept (mem_of_lookup before)) (AList.lookup_eq_none.mp after)

theorem track_alike (alike : Alike s l l') (own : Belongs s key)
    (spared : Spares s l (l.track o key packetSize now).2)
    (spared' : Spares s l' (l'.track o key packetSize now).2) :
    (l.track o key packetSize now).1 = (l'.track o key packetSize now).1 ∧
      Alike s (l.track o key packetSize now).2 (l'.track o key packetSize now).2 := by
  obtain ⟨rates, alpha, stored, -⟩ := track_spec l o key packetSize now
  obtain ⟨rates', alpha', stored', -⟩ := track_spec l' o key packetSize now
  have limits := track_limits l o key packetSize now
  have limits' := track_limits l' o key packetSize now
  have updated : l.updateBucket ((l.buckets.lookup key).getD ⟨0, 0, now⟩) packetSize now =
      l'.updateBucket ((l'.buckets.lookup key).getD ⟨0, 0, now⟩) packetSize now := by
    rw [alike.buckets key own, updateBucket_congr alike.alpha]
  constructor
  · rw [rates, rates', updated]
  · refine ⟨?_, ?_, ?_, fun k mine => ?_⟩
    · rw [limits.1, limits'.1, alike.ppsLimit]
    · rw [limits.2, limits'.2, alike.bpsLimit]
    · rw [alpha, alpha', alike.alpha]
    · by_cases same : k = key
      · rw [same, stored, stored', updated]
      · rw [track_kept same (spared k mine), track_kept same (spared' k mine)]
        exact alike.buckets k mine

theorem track_other (other : ¬ Belongs s key)
    (spared : Spares s l (l.track o key packetSize now).2) :
    Alike s l (l.track o key packetSize now).2 := by
  obtain ⟨pps, bps⟩ := track_limits l o key packetSize now
  refine ⟨pps.symm, bps.symm, (track_spec l o key packetSize now).2.1.symm, fun k own => ?_⟩
  have apart : k ≠ key := fun same => other (same ▸ own)
  exact (track_kept apart (spared k own)).symm

end Track

section Cleanup

private theorem foldl_erase_lookup_eq (keys : List String) (buckets : FMap String RateBucket)
    (k : String) : (keys.foldl (fun m k => m.erase k) buckets).lookup k =
      if k ∈ keys then none else buckets.lookup k := by
  induction keys generalizing buckets with
  | nil => rfl
  | cons key keys ih =>
      rw [List.foldl_cons, ih, lookup_erase_eq]
      by_cases later : k ∈ keys
      · simp [later]
      · simp [later]

private theorem mem_idleKeys_iff {idle : Duration} {now : Time} {k : String} :
    k ∈ l.idleKeys idle now ↔ ∃ b, l.buckets.lookup k = some b ∧
      idle < (now : Int) - b.lastTime := by
  unfold Limiter.idleKeys
  rw [List.mem_map]
  constructor
  · rintro ⟨⟨k, b⟩, member, rfl⟩
    obtain ⟨inside, late⟩ := List.mem_filter.mp member
    exact ⟨b, AList.mem_lookup_iff.mpr inside, of_decide_eq_true late⟩
  · rintro ⟨b, found, late⟩
    refine ⟨⟨k, b⟩, List.mem_filter.mpr ⟨AList.mem_lookup_iff.mp found, ?_⟩, rfl⟩
    exact decide_eq_true late

theorem cleanup_alike (alike : Alike s l l') (idle : Duration) (now : Time) :
    Alike s (l.Cleanup idle now).2 (l'.Cleanup idle now).2 := by
  refine ⟨alike.ppsLimit, alike.bpsLimit, alike.alpha, fun k own => ?_⟩
  change ((l.idleKeys idle now).foldl (fun m k => m.erase k) l.buckets).lookup k =
    ((l'.idleKeys idle now).foldl (fun m k => m.erase k) l'.buckets).lookup k
  have same : k ∈ l.idleKeys idle now ↔ k ∈ l'.idleKeys idle now := by
    rw [mem_idleKeys_iff, mem_idleKeys_iff, alike.buckets k own]
  rw [foldl_erase_lookup_eq, foldl_erase_lookup_eq, alike.buckets k own]
  simp only [same]

end Cleanup

end L3Firewall.Ratelimit.SourceView
