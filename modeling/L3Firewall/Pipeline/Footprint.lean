/- Pipeline/Footprint
   source: internal/engine/engine.go, internal/conntrack/table.go, internal/ratelimit/ratelimit.go
   digest: Nothing that packets can fill outgrows its cap, in any interleaving. -/

import L3Firewall.Pipeline.Counters
import L3Firewall.Pipeline.Interleaving
import L3Firewall.Pipeline.PortScan
import L3Firewall.Pipeline.Restart

set_option autoImplicit false
set_option relaxedAutoImplicit false

namespace L3Firewall.Pipeline.Footprint

open Foundation.FiniteMap
open Foundation.Runs (Machine)
open Net.Address (normalizeIP)
open Conntrack.FlowTable
open Conntrack.Accounting
open Conntrack.PortHistory (Tracked apply_tracked recordDestPort_tracked newTable_tracked)
open Ratelimit.Buckets (Limiter newLimiter BucketOrder RateBucket)
open Packet.Parser (Bytes Decoder PacketInfo ParsePacket)
open Opa.Evaluator (Text)
open Handlers
open Course
open Interleaving
open PortScan (trackOp trackFlow_table trackFlow_live)
open Restart (restoreState mergeEntry)

/-- A table as it is used: set up so, accounted for, and with ports of live sources only. -/
structure SoundTable (cfg : Config) (t : Table) : Prop where
  cfg : t.cfg = cfg.effective
  accounted : Accounted t
  tracked : ∃ h, Tracked t h

structure SoundLimiter (l : Limiter) : Prop where
  maxEntries : l.maxEntries = 100000
  buckets : (len l.buckets : Int) ≤ l.maxEntries

/-- Everything in the engine that grows with the packets it sees. -/
structure Contained (cfg : Config) (e : Engine) : Prop where
  table : ∀ t, e.conntrack = some t → SoundTable cfg t
  limiter : ∀ l, e.ratelimit = some l → SoundLimiter l
  recent : e.recentBlocks.length ≤ maxRecentBlocks
  reasons : ∀ entry ∈ e.recentBlocks, entry.reason.length ≤ maxReasonLength
  stats : len e.blockStats ≤ maxBlockStatsReasons

/-- When the port of a packet is about to be recorded, its source has a flow. -/
def AtPort (S : System) : Prop :=
  ∀ job flow t, S.hook = .port job flow → S.engine.conntrack = some t →
    0 < flowsFrom t (normalizeIP job.pi.srcIP)

/-- An expiry that comes between the two accesses that track a packet leaves its source a
flow. -/
def Timely (S : System) : Label → Prop
  | .expire o now =>
      match S.hook, S.engine.conntrack with
      | .port job _, some t => 0 < flowsFrom (t.expire o now) (normalizeIP job.pi.srcIP)
      | _, _ => True
  | _ => True

instance (S : System) : (label : Label) → Decidable (Timely S label)
  | .expire o now =>
      match here : S.hook, table : S.engine.conntrack with
      | .port job _, some t => decidable_of_iff
          (0 < flowsFrom (t.expire o now) (normalizeIP job.pi.srcIP)) (by simp [Timely, *])
      | .port _ _, none => isTrue (by simp [Timely, *])
      | .idle, _ | .flow _, _ | .rate _ _, _ | .portRate _ _ _ _, _ | .connRate _ _ _, _
      | .ports _ _ _ _, _ | .blocklist _ _, _ => isTrue (by simp [Timely, *])
  | .arrive _ _ | .advance | .cleanup _ | .refresh _ => isTrue trivial

/-- The firewall from the start of Run on: what an earlier run saved is restored first. -/
def system (d : Decoder) (cfg : Config) : Machine System Label where
  init S := ∃ eval failClosed auditOnly al ar gr ti pw l2 pps bps sys o statePath files,
    S = ⟨restoreState sys o statePath files (new eval (some (newTable cfg))
      (some (newLimiter pps bps)) failClosed auditOnly al ar gr ti pw l2), .idle⟩
  next S label := some (step d S label).2

section Parts

variable {cfg : Config} {t : Table} {l : Limiter} {e e' : Engine}

private theorem SoundTable.apply (sound : SoundTable cfg t) (op : Op) :
    SoundTable cfg (t.apply op) := by
  obtain ⟨h, tracked⟩ := sound.tracked
  exact ⟨(apply_cfg t op).trans sound.cfg, apply_accounted sound.accounted op, _,
    apply_tracked tracked sound.accounted op⟩

private theorem SoundTable.trackPort (sound : SoundTable cfg t) {pi : PacketInfo}
    (live : 0 < flowsFrom t (normalizeIP pi.srcIP)) : SoundTable cfg (trackPort pi t) := by
  obtain ⟨h, tracked⟩ := sound.tracked
  unfold Handlers.trackPort
  split
  · exact ⟨(recordDestPort_cfg t _ _).trans sound.cfg,
      recordDestPort_accounted sound.accounted _ _, _, recordDestPort_tracked tracked _ _ live⟩
  · exact sound

private theorem evictScan_found (entries : List ((_ : String) × RateBucket))
    (best : Option (String × Time)) (some_left : entries ≠ [] ∨ best ≠ none) :
    ∃ key time, Ratelimit.Buckets.evictScan entries best = some (key, time) ∧
      (key ∈ entries.map Sigma.fst ∨ best = some (key, time)) := by
  induction entries generalizing best with
  | nil =>
      rcases some_left with absurd_nil | given
      · exact absurd rfl absurd_nil
      · obtain ⟨⟨key, time⟩, same⟩ := Option.ne_none_iff_exists'.mp given
        exact ⟨key, time, same, .inr same⟩
  | cons entry rest ih =>
      obtain ⟨key, b⟩ := entry
      have first : ∃ key' time, Ratelimit.Buckets.evictScan rest
          (some (key, b.lastTime)) = some (key', time) ∧
          key' ∈ key :: rest.map Sigma.fst := by
        obtain ⟨key', time, found, later | here⟩ := ih (some (key, b.lastTime)) (.inr (by simp))
        · exact ⟨key', time, found, List.mem_cons_of_mem _ later⟩
        · obtain ⟨rfl, -⟩ := Prod.mk.inj (Option.some.inj here)
          exact ⟨key, time, found, List.mem_cons_self⟩
      cases best with
      | none =>
          obtain ⟨key', time, found, member⟩ := first
          exact ⟨key', time, found, .inl member⟩
      | some old =>
          obtain ⟨oldKey, oldTime⟩ := old
          unfold Ratelimit.Buckets.evictScan
          split
          · obtain ⟨key', time, found, member⟩ := first
            exact ⟨key', time, found, .inl member⟩
          · obtain ⟨key', time, found, later | here⟩ := ih (some (oldKey, oldTime)) (.inr (by simp))
            · exact ⟨key', time, found, .inl (List.mem_cons_of_mem _ later)⟩
            · exact ⟨key', time, found, .inr here⟩

private theorem evictOneSampledLocked_len (l : Limiter) (o : BucketOrder)
    (nonempty : 0 < len l.buckets) :
    len (l.evictOneSampledLocked o).buckets = len l.buckets - 1 ∧
      (l.evictOneSampledLocked o).maxEntries = l.maxEntries := by
  have sampled : (range o l.buckets).take Ratelimit.Buckets.evictionSampleSize ≠ [] := by
    intro empty
    have size := congrArg List.length empty
    rw [List.length_take, range_length, List.length_nil] at size
    unfold Ratelimit.Buckets.evictionSampleSize at size
    omega
  obtain ⟨key, time, found, member | impossible⟩ := evictScan_found _ none (.inl sampled)
  · obtain ⟨⟨k, b⟩, inside, rfl⟩ := List.mem_map.mp member
    have present : k ∈ l.buckets :=
      mem_of_lookup (mem_range_iff.mp (List.mem_of_mem_take inside))
    unfold Limiter.evictOneSampledLocked
    rw [found]
    exact ⟨len_erase present, rfl⟩
  · exact absurd impossible (by simp)

private theorem SoundLimiter.track (sound : SoundLimiter l) (o : BucketOrder) (key : String)
    (packetSize : Nat) (now : Time) : SoundLimiter (l.track o key packetSize now).2 := by
  obtain ⟨capacity, bounded⟩ := sound
  unfold Limiter.track Limiter.getOrCreateBucket
  cases found : l.buckets.lookup key with
  | some b =>
      refine ⟨capacity, ?_⟩
      have same : len (l.buckets.insert key (l.updateBucket b packetSize now)) = len l.buckets :=
        len_insert_old (mem_of_lookup found) _
      dsimp only
      rw [same]
      exact bounded
  | none =>
      dsimp only
      split
      · next full =>
          obtain ⟨evicted, kept⟩ := evictOneSampledLocked_len l o (by omega)
          have grown := len_insert_le (l.evictOneSampledLocked o).buckets key
            ((l.evictOneSampledLocked o).updateBucket ⟨0, 0, now⟩ packetSize now)
          exact ⟨kept.trans capacity, by dsimp only; rw [kept]; omega⟩
      · next room =>
          have grown := len_insert_le l.buckets key (l.updateBucket ⟨0, 0, now⟩ packetSize now)
          exact ⟨capacity, by dsimp only; omega⟩

private theorem SoundLimiter.cleanup (sound : SoundLimiter l) (idle : Duration) (now : Time) :
    SoundLimiter (l.Cleanup idle now).2 := by
  have shrunk (keys : List String) (m : FMap String RateBucket) :
      len (keys.foldl (fun m k => m.erase k) m) ≤ len m := by
    induction keys generalizing m with
    | nil => exact Nat.le_refl _
    | cons key keys ih => exact (ih _).trans (len_erase_le m key)
  have fewer := shrunk (l.idleKeys idle now) l.buckets
  have bounded := sound.buckets
  refine ⟨sound.maxEntries, ?_⟩
  change (len ((l.idleKeys idle now).foldl (fun m k => m.erase k) l.buckets) : Int) ≤ l.maxEntries
  omega

private theorem appendRecent_length {recent : List BlockLogEntry} (entry : BlockLogEntry)
    (bounded : recent.length ≤ maxRecentBlocks) :
    (appendRecent recent entry).length ≤ maxRecentBlocks := by
  unfold appendRecent
  rw [List.length_append, List.length_singleton]
  split
  · rw [List.length_drop]
    unfold maxRecentBlocks at *
    omega
  · omega

private theorem mem_appendRecent {recent : List BlockLogEntry} {entry other : BlockLogEntry}
    (member : other ∈ appendRecent recent entry) : other ∈ recent ∨ other = entry := by
  unfold appendRecent at member
  rcases List.mem_append.mp member with old | new
  · left
    split at old
    · exact List.mem_of_mem_drop old
    · exact old
  · exact .inr (List.mem_singleton.mp new)

private theorem Contained.of_same (contained : Contained cfg e) (flows : e'.conntrack = e.conntrack)
    (buckets : e'.ratelimit = e.ratelimit) (recent : e'.recentBlocks = e.recentBlocks)
    (stats : e'.blockStats = e.blockStats) : Contained cfg e' where
  table := flows ▸ contained.table
  limiter := buckets ▸ contained.limiter
  recent := recent ▸ contained.recent
  reasons := recent ▸ contained.reasons
  stats := stats ▸ contained.stats

private theorem Contained.recordBlock (contained : Contained cfg e) (now : Time) (pi : PacketInfo)
    (reason : Text) (tid : String) : Contained cfg (e.recordBlock now pi reason tid) where
  table := contained.table
  limiter := contained.limiter
  recent := appendRecent_length _ contained.recent
  reasons := by
    intro entry member
    rcases mem_appendRecent member with old | rfl
    · exact contained.reasons entry old
    · exact List.length_take_le _ _
  stats := BlockStats.record_len_le (b := ⟨now, pi, reason, tid⟩) contained.stats

private theorem Contained.finish (contained : Contained cfg e) (env : Env) (pi : PacketInfo)
    (raw : Bytes)
    (ending : Ending) : Contained cfg (finish env pi raw e ending).2.engine := by
  obtain ⟨-, flows, buckets⟩ := decision_same env pi raw e ending
  obtain ⟨recent, stats⟩ := decision_records env pi raw e ending
  cases ending with
  | panicked value => exact contained.of_same flows buckets recent stats
  | blocked tid reason alert =>
      exact (contained.recordBlock env.blockTime pi reason tid).of_same flows buckets recent stats
  | accepted tid type reason result => exact contained.of_same flows buckets recent stats

end Parts

section Steps

variable {d : Decoder} {cfg : Config} {S : System}

private theorem advanced_contained (contained : Contained cfg S.engine) (atPort : AtPort S) :
    Contained cfg (advanced S) := by
  obtain ⟨e, hook⟩ := S
  have table := contained.table
  have limiter := contained.limiter
  unfold advanced
  cases hook with
  | flow job =>
      refine ⟨fun t stored => ?_, limiter, contained.recent, contained.reasons, contained.stats⟩
      obtain ⟨before, present, rfl⟩ := Option.map_eq_some_iff.mp stored
      rw [trackFlow_table]
      exact (table before present).apply _
  | port job flow =>
      refine ⟨fun t stored => ?_, limiter, contained.recent, contained.reasons, contained.stats⟩
      obtain ⟨before, present, rfl⟩ := Option.map_eq_some_iff.mp stored
      exact (table before present).trackPort (atPort job flow before rfl present)
  | rate job flow =>
      refine ⟨table, fun l stored => ?_, contained.recent, contained.reasons, contained.stats⟩
      obtain ⟨before, present, rfl⟩ := Option.map_eq_some_iff.mp stored
      exact (limiter before present).track _ _ _ _
  | portRate job flow pps bps =>
      refine ⟨table, fun l stored => ?_, contained.recent, contained.reasons, contained.stats⟩
      obtain ⟨before, present, rfl⟩ := Option.map_eq_some_iff.mp stored
      exact (limiter before present).track _ _ _ _
  | idle => exact contained
  | connRate job flow rates => exact contained
  | ports job flow rates newConnRate => exact contained
  | blocklist job input => exact contained

structure Sound (cfg : Config) (S : System) : Prop where
  contained : Contained cfg S.engine
  atPort : AtPort S

private theorem sound_idle (contained : Contained cfg S.engine) (idle : S.hook = .idle) :
    Sound cfg S :=
  ⟨contained, fun _ _ _ here => absurd (idle.symm.trans here) nofun⟩

private theorem advance_sound (sound : Sound cfg S) : Sound cfg (advance S).2 := by
  cases busy : job? S.hook with
  | none =>
      have idle : advance S = (none, S) := by
        obtain ⟨e, hook⟩ := S
        cases hook with
        | idle => rfl
        | _ => exact absurd busy nofun
      rw [idle]
      exact sound
  | some job =>
      have contained := advanced_contained sound.contained sound.atPort
      generalize outcome : advance S = x
      have reaches := advance_reaches S busy
      rw [outcome] at reaches
      cases reaches with
      | finished ending => exact sound_idle (contained.finish _ _ _ _) rfl
      | @moved stage same port =>
          refine ⟨contained, ?_⟩
          rintro job' flow t rfl present
          obtain rfl : job' = job := Option.some.inj same
          obtain ⟨first, before, flow', found, tracked⟩ := port ⟨flow, rfl⟩
          have stored : advanced S =
              { S.engine with conntrack := some (trackFlow job'.env job'.pi before).2 } := by
            unfold advanced
            rw [first, found]
            rfl
          rw [stored] at present
          obtain rfl := Option.some.inj present
          exact trackFlow_live tracked

private theorem arrive_sound (contained : Contained cfg S.engine) (env : Env)
    (payload : Option Bytes) :
    Sound cfg (arrive d env payload S.engine).2 := by
  have counted : Contained cfg S.engine.countProcessed := contained.of_same rfl rfl rfl rfl
  rcases arrive_cases d env payload S.engine with
    dropped | ⟨pi, raw, ⟨value, panicked⟩ | ⟨tid, taken⟩⟩
  · rw [dropped]
    exact sound_idle (contained.of_same rfl rfl rfl rfl) rfl
  · rw [panicked]
    exact sound_idle (counted.finish _ _ _ _) rfl
  · rw [taken]
    exact ⟨counted, fun _ _ _ here => absurd here nofun⟩

private theorem step_sound (sound : Sound cfg S) (label : Label) (timely : Timely S label) :
    Sound cfg (step d S label).2 := by
  obtain ⟨contained, atPort⟩ := sound
  cases label with
  | arrive env payload =>
      by_cases idle : S.hook = .idle
      · rw [step_arrive idle]
        exact arrive_sound contained env payload
      · rw [step_busy idle]
        exact ⟨contained, atPort⟩
  | advance => exact advance_sound ⟨contained, atPort⟩
  | expire o now =>
      refine ⟨⟨fun t stored => ?_, contained.limiter, contained.recent, contained.reasons,
        contained.stats⟩, fun job flow t here stored => ?_⟩
      · obtain ⟨before, present, rfl⟩ := Option.map_eq_some_iff.mp stored
        exact (contained.table before present).apply (.expire o now)
      · obtain ⟨before, present, rfl⟩ := Option.map_eq_some_iff.mp stored
        unfold Timely at timely
        rw [show S.hook = .port job flow from here, present] at timely
        exact timely
  | cleanup now =>
      refine ⟨⟨contained.table, fun l stored => ?_, contained.recent, contained.reasons,
        contained.stats⟩, atPort⟩
      obtain ⟨before, present, rfl⟩ := Option.map_eq_some_iff.mp stored
      exact (contained.limiter before present).cleanup _ _
  | refresh bl =>
      exact ⟨⟨contained.table, contained.limiter, contained.recent, contained.reasons,
        contained.stats⟩, atPort⟩

private theorem mergeEntries_len (entries : List ((_ : Foundation.Utf8.Bytes) × Int64))
    (m : FMap Text Int) (bounded : len m ≤ maxBlockStatsReasons) :
    len (entries.foldl mergeEntry m) ≤ maxBlockStatsReasons := by
  induction entries generalizing m with
  | nil => exact bounded
  | cons entry entries ih =>
      apply ih
      unfold mergeEntry
      split
      · next room =>
          have grown := len_insert_le m entry.1 entry.2.toInt
          omega
      · exact bounded

private theorem restoreState_contained {e : Engine} (contained : Contained cfg e)
    (sys : Persist.State.Loading) (o : RangeOrder ((_ : Foundation.Utf8.Bytes) × Int64))
    (statePath : Filepath.Lexical.Pathname) (files : Persist.State.Files) :
    Contained cfg (restoreState sys o statePath files e) := by
  unfold restoreState
  split
  · exact contained
  · split
    · exact contained
    · exact contained
    · split
      · exact contained
      · exact ⟨contained.table, contained.limiter, contained.recent, contained.reasons,
          mergeEntries_len _ _ contained.stats⟩

private theorem new_contained (cfg : Config) (pps bps : ℚ)
    (eval failClosed auditOnly al ar gr : Bool)
    (ti : Option Threatintel.Lookup.Blocklist) (pw : Bool) (l2 : Option L2filter.MacLists.Filter) :
    Contained cfg (new eval (some (newTable cfg)) (some (newLimiter pps bps)) failClosed auditOnly
      al ar gr ti pw l2) where
  table t present := by
    obtain rfl := Option.some.inj present
    exact ⟨rfl, newTable_accounted cfg, _, newTable_tracked cfg⟩
  limiter l present := by
    obtain rfl := Option.some.inj present
    exact ⟨rfl, Int.natCast_nonneg 100000⟩
  recent := Nat.zero_le _
  reasons _ member := absurd member List.not_mem_nil
  stats := Nat.zero_le _

private theorem init_sound (started : (system d cfg).init S) : Sound cfg S := by
  obtain ⟨eval, failClosed, auditOnly, al, ar, gr, ti, pw, l2, pps, bps, sys, o, statePath, files,
    rfl⟩ := started
  have fresh := new_contained cfg pps bps eval failClosed auditOnly al ar gr ti pw l2
  exact sound_idle (restoreState_contained fresh sys o statePath files) rfl

private theorem reachable_sound (reached : (system d cfg).Reachable Timely S) : Sound cfg S := by
  refine reached.invariant (Sound cfg) (fun _ => init_sound) ?_
  intro S label S' _ sound timely taken
  obtain rfl := Option.some.inj taken
  exact step_sound sound label timely

end Steps

section Counts

variable {t : Table}

private theorem flow_of_source {s : String} (live : 0 < flowsFrom t s) :
    ∃ key ∈ t.flows, key.srcIP = s := by
  obtain ⟨key, member, own⟩ := List.countP_pos_iff.mp live
  exact ⟨key, AList.mem_keys.mpr member, of_decide_eq_true own⟩

private theorem companions_bounded (accounted : Accounted t) (tracked : ∃ h, Tracked t h) :
    len t.srcFlowCount ≤ len t.flows ∧ len t.newConns ≤ len t.flows ∧
      len t.srcPorts ≤ len t.flows := by
  obtain ⟨h, tracked⟩ := tracked
  refine ⟨len_le_of_covered FlowKey.srcIP fun s known => flow_of_source ?_,
    len_le_of_covered FlowKey.srcIP fun s known => flow_of_source ?_,
    len_le_of_covered FlowKey.srcIP fun s known => flow_of_source ?_⟩
  · have counted := accounted.counted.counts s
    by_contra none_left
    rw [if_pos (by omega)] at counted
    exact AList.lookup_eq_none.mp counted known
  · exact (accounted.counted.rates s).mp known
  · by_contra none_left
    exact AList.lookup_eq_none.mp (tracked.gone s (by omega)).1 known

end Counts

/-- Bounded memory. Whatever packets arrive and however the hook, the ticker and the refresher
are interleaved, nothing that packets can fill outgrows its cap: the flows, what is kept beside
them for each source, the buckets, the log of blocks and the statistics. The one condition is
that no expiry takes the last flow of a source between the two accesses that track a packet of
it, since its port would then be recorded for a source without flows. -/
theorem footprint_bounded (d : Decoder) (cfg : Config) (S : System)
    (reached : (system d cfg).Reachable Timely S) (t : Table)
    (table : S.engine.conntrack = some t) (l : Limiter) (limiter : S.engine.ratelimit = some l) :
    (len t.flows : Int) ≤ cfg.effective.maxEntries ∧
    len t.srcFlowCount ≤ len t.flows ∧ len t.newConns ≤ len t.flows ∧
    len t.srcPorts ≤ len t.flows ∧
    (∀ s ports, t.srcPorts.lookup s = some ports →
      ports.Nodup ∧ (ports.length : Int) ≤ cfg.effective.portScanMaxPorts) ∧
    len l.buckets ≤ 100000 ∧
    S.engine.recentBlocks.length ≤ 100 ∧
    (∀ entry ∈ S.engine.recentBlocks, entry.reason.length ≤ 1024) ∧
    len S.engine.blockStats ≤ 256 := by
  have contained := (reachable_sound reached).contained
  have sound := contained.table t table
  have capped := contained.limiter l limiter
  obtain ⟨counts, rates, ports⟩ := companions_bounded sound.accounted sound.tracked
  refine ⟨sound.cfg ▸ sound.accounted.bounded, counts, rates, ports, ?_, ?_, contained.recent,
    contained.reasons, contained.stats⟩
  · intro s list stored
    obtain ⟨h, tracked⟩ := sound.tracked
    have sampled := tracked.sampled s
    rw [stored, sound.cfg] at sampled
    exact ⟨sampled.nodup, sampled.bounded⟩
  · have bounded := capped.buckets
    rw [capped.maxEntries] at bounded
    omega

/-- A packet whose port is recorded after an expiry. -/
def interruptedRun : List Label :=
  [.arrive Counters.brokenCapture (some Counters.wholeSyn), .advance, .expire .stored 5, .advance,
    .advance, .cleanup 7, .advance, .advance, .advance, .advance]

def started : System :=
  ⟨restoreState Restart.readable .stored [] ∅ Quiet.freshEngine, .idle⟩

theorem interruptedRun_bounded : ∃ S t l,
    (system Packet.Parser.fixedFields defaultConfig).run started interruptedRun = some S ∧
      S.engine.conntrack = some t ∧ S.engine.ratelimit = some l ∧ len t.flows = 1 ∧
      len t.srcPorts ≤ len t.flows ∧ len S.engine.blockStats ≤ 256 := by
  let S := (perform Packet.Parser.fixedFields started interruptedRun).2
  have ran : (system Packet.Parser.fixedFields defaultConfig).run started interruptedRun = some S :=
    rfl
  have reached : (system Packet.Parser.fixedFields defaultConfig).Reachable Timely S :=
    .of_along (.init ⟨_, _, _, _, _, _, _, _, _, _, _, _, _, _, _, rfl⟩) interruptedRun
      (by decide +kernel) ran
  obtain ⟨t, table⟩ : ∃ t, S.engine.conntrack = some t := ⟨_, rfl⟩
  obtain ⟨l, limiter⟩ : ∃ l, S.engine.ratelimit = some l := ⟨_, rfl⟩
  have bounds := footprint_bounded _ _ S reached t table l limiter
  have one : S.engine.conntrack.map (fun t => len t.flows) = some 1 := by decide +kernel
  rw [table] at one
  exact ⟨S, t, l, ran, table, limiter, Option.some.inj one, bounds.2.2.2.1, bounds.2.2.2.2.2.2.2.2⟩

end L3Firewall.Pipeline.Footprint
