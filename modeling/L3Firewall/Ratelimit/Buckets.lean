/- Ratelimit/Buckets
   source: internal/ratelimit/ratelimit.go
   digest: Packet and byte rates per source and per destination port, by moving average. -/

import L3Firewall.Conntrack.FlowTable

set_option autoImplicit false
set_option relaxedAutoImplicit false

namespace L3Firewall.Ratelimit.Buckets

open Foundation.FiniteMap
open Net.Address (normalizeIP)
open Conntrack.FlowTable (Time Duration)

/-- Rates are exact rationals. -/
structure RateBucket where
  pps : ℚ
  bps : ℚ
  lastTime : Time
  deriving DecidableEq

structure Limiter where
  buckets : FMap String RateBucket
  ppsLimit : ℚ
  bpsLimit : ℚ
  alpha : ℚ
  maxEntries : Int

def newLimiter (ppsLimit bpsLimit : ℚ) : Limiter where
  buckets := ∅
  ppsLimit := ppsLimit
  bpsLimit := bpsLimit
  alpha := 3 / 10
  maxEntries := 100000

def ipKey (ip : String) : String := "ip:" ++ normalizeIP ip

def portKey (ip : String) (dstPort : UInt16) : String :=
  "port:" ++ normalizeIP ip ++ ":" ++ Nat.repr dstPort.toNat

abbrev BucketOrder := RangeOrder ((_ : String) × RateBucket)

/-- Seconds between two readings; a clock that stands still counts as a millisecond. -/
def elapsedSeconds (now last : Time) : ℚ :=
  let dt := (((now : Int) - last : Int) : ℚ) / 1000000000
  if dt ≤ 0 then 1 / 1000 else dt

def Limiter.updateBucket (l : Limiter) (b : RateBucket) (packetSize : Nat) (now : Time) :
    RateBucket :=
  let dt := elapsedSeconds now b.lastTime
  let pps := if b.pps = 0 then 1 else l.alpha * (1 / dt) + (1 - l.alpha) * b.pps
  let bps := if b.pps = 0 then (packetSize : ℚ)
    else l.alpha * (packetSize / dt) + (1 - l.alpha) * b.bps
  { pps := if 10 ^ 12 < pps then 10 ^ 12 else pps
    bps := if 10 ^ 15 < bps then 10 ^ 15 else bps
    lastTime := now }

def evictionSampleSize : Nat := 16

def evictScan :
    List ((_ : String) × RateBucket) → Option (String × Time) → Option (String × Time)
  | [], best => best
  | ⟨key, b⟩ :: rest, none => evictScan rest (some (key, b.lastTime))
  | ⟨key, b⟩ :: rest, some (oldestKey, oldestTime) =>
      if b.lastTime < oldestTime then evictScan rest (some (key, b.lastTime))
      else evictScan rest (some (oldestKey, oldestTime))

def Limiter.evictOneSampledLocked (l : Limiter) (o : BucketOrder) : Limiter :=
  match evictScan ((range o l.buckets).take evictionSampleSize) none with
  | none => l
  | some (oldestKey, _) => { l with buckets := l.buckets.erase oldestKey }

/-- The bucket for a key and the limiter with room for it. -/
def Limiter.getOrCreateBucket (l : Limiter) (o : BucketOrder) (key : String) (now : Time) :
    RateBucket × Limiter :=
  match l.buckets.lookup key with
  | some b => (b, l)
  | none =>
      let l := if 0 < l.maxEntries ∧ l.maxEntries ≤ len l.buckets then l.evictOneSampledLocked o
        else l
      (⟨0, 0, now⟩, l)

def Limiter.track (l : Limiter) (o : BucketOrder) (key : String) (packetSize : Nat) (now : Time) :
    (ℚ × ℚ) × Limiter :=
  let (b, l) := l.getOrCreateBucket o key now
  let b := l.updateBucket b packetSize now
  ((b.pps, b.bps), { l with buckets := l.buckets.insert key b })

def Limiter.Allow (l : Limiter) (o : BucketOrder) (ip : String) (packetSize : Nat) (now : Time) :
    (ℚ × ℚ) × Limiter :=
  l.track o (ipKey ip) packetSize now

def Limiter.AllowPort (l : Limiter) (o : BucketOrder) (ip : String) (dstPort : UInt16)
    (packetSize : Nat) (now : Time) : (ℚ × ℚ) × Limiter :=
  l.track o (portKey ip dstPort) packetSize now

/-- A limit of zero is no limit. -/
def Limiter.ExceedsLimit (l : Limiter) (pps bps : ℚ) : Bool :=
  decide (0 < l.ppsLimit ∧ l.ppsLimit < pps) || decide (0 < l.bpsLimit ∧ l.bpsLimit < bps)

/-- Keys of the buckets idle for longer than a threshold. -/
def Limiter.idleKeys (l : Limiter) (idleThreshold : Duration) (now : Time) : List String :=
  (l.buckets.entries.filter fun e =>
    decide (idleThreshold < (now : Int) - e.2.lastTime)).map Sigma.fst

def Limiter.Cleanup (l : Limiter) (idleThreshold : Duration) (now : Time) : Nat × Limiter :=
  let idle := l.idleKeys idleThreshold now
  (idle.length, { l with buckets := idle.foldl (fun m k => m.erase k) l.buckets })

end L3Firewall.Ratelimit.Buckets
