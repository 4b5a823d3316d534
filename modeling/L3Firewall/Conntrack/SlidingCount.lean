/- Conntrack/SlidingCount
   source: internal/conntrack/table.go
   digest: The bucket ring of a source counts its new flows of the last ten seconds. -/

import L3Firewall.Conntrack.PortHistory
import L3Firewall.Foundation.Runs
import L3Firewall.Foundation.SlidingWindow
import Mathlib.Algebra.Field.Rat
import Mathlib.Tactic.NormNum

set_option autoImplicit false
set_option relaxedAutoImplicit false

namespace L3Firewall.Conntrack.SlidingCount

open Foundation.FiniteMap
open Foundation.Runs
open Foundation.SlidingWindow (Rings)
open Net.Address (normalizeIP)
open FlowTable Accounting
open Companion (Follows forget newConns_pruned alive_insert)
open PortHistory (creates removals)

instance : NeZero connRateWindowSecs := ⟨by decide⟩

/-! The flows created for each source, and when. -/

/-- For each source, the clock readings of the flows created since it last had no live flow. -/
abbrev Births := String → List Clock

def birth (h : Births) (srcIP : String) (clock : Clock) : Births :=
  Function.update h srcIP (h srcIP ++ [clock])

/-- What a call adds. A creation evicts first if the table is full, and a source may lose its
last flow to that; an expiry removes flow after flow. -/
def note (t : Table) (h : Births) (op : Op) : Births :=
  match op with
  | .lookupOrCreate o clock srcIP dstIP protocol srcPort dstPort
  | .updateTCPState o clock srcIP dstIP protocol srcPort dstPort _ =>
      let key := flowKey srcIP dstIP protocol srcPort dstPort
      if creates t key then
        forget (birth (forget h (t.evictIfFull o)) key.srcIP clock) (t.apply op)
      else forget h (t.apply op)
  | .delete _ _ _ _ _ => forget h (t.apply op)
  | .expire o now => forget ((removals t (t.expiredKeys o now)).foldl forget h) (t.apply op)

def readings : Op → List Time
  | .lookupOrCreate _ clock _ _ _ _ _ | .updateTCPState _ clock _ _ _ _ _ _ =>
      [clock.created, clock.lastSeen, clock.record]
  | .delete _ _ _ _ _ => []
  | .expire _ now => [now]

structure State where
  table : Table
  births : Births
  clock : Time

inductive Call
  | flows (op : Op)
  | recordDestPort (srcIP : String) (dstPort : UInt16)

/-- A table in use, under a clock that starts in second one or later and never goes back. -/
def counting (cfg : Config) : Machine State Call where
  init s := s.table = newTable cfg ∧ (s.births = fun _ => []) ∧ 1 ≤ unix s.clock
  next s
    | .flows op =>
        if (s.clock :: readings op).Pairwise (· ≤ ·) then
          some ⟨s.table.apply op, note s.table s.births op, (readings op).getLastD s.clock⟩
        else none
    | .recordDestPort srcIP dstPort =>
        some { s with table := s.table.recordDestPort srcIP dstPort }

/-! The ring of one source. -/

/-- The ring of a source against the seconds in which its flows were recorded. -/
def RingOf (ring : Option NewConnRate) (h : List Clock) : Prop :=
  Rings (ring.getD NewConnRate.empty).secs (ring.getD NewConnRate.empty).counts
    (h.map fun c => unix c.record)

private theorem ringOf_nil : RingOf none [] := Rings.empty

private theorem unix_mono {a b : Time} (le : a ≤ b) : unix a ≤ unix b := Nat.div_le_div_right le

private theorem RingOf.record {ring : Option NewConnRate} {h : List Clock} {clock : Clock}
    (rings : RingOf ring h) (positive : 1 ≤ unix clock.record)
    (late : ∀ c ∈ h, c.record ≤ clock.record) :
    RingOf (some ((ring.getD NewConnRate.empty).record clock.record)) (h ++ [clock]) := by
  have after : ∀ t ∈ h.map (fun c => unix c.record), t ≤ unix clock.record := by
    intro t member
    obtain ⟨c, past, rfl⟩ := List.mem_map.mp member
    exact unix_mono (late c past)
  unfold RingOf
  rw [List.map_append]
  exact Rings.record rings positive after

private theorem RingOf.windowSum {ring : Option NewConnRate} {h : List Clock} {now : Time}
    (rings : RingOf ring h) (late : ∀ c ∈ h, c.record ≤ now) :
    (ring.getD NewConnRate.empty).windowSum now =
      h.countP (fun c => decide (unix now < unix c.record + connRateWindowSecs)) := by
  have after : ∀ t ∈ h.map (fun c => unix c.record), t ≤ unix now := by
    intro t member
    obtain ⟨c, past, rfl⟩ := List.mem_map.mp member
    exact unix_mono (late c past)
  rw [NewConnRate.windowSum, ← Fin.sum_univ_def, Rings.sum rings after, List.countP_map]
  rfl

/-! One call. -/

variable {t t' : Table} {h : Births} {key : FlowKey} {clock : Clock}

private theorem birth_self (h : Births) (srcIP : String) (clock : Clock) :
    birth h srcIP clock srcIP = h srcIP ++ [clock] :=
  Function.update_self ..

private theorem birth_other {s : String} (other : s ≠ key.srcIP) :
    birth h key.srcIP clock s = h s :=
  Function.update_of_ne other ..

private theorem follows_create {f : Flow} (follows : Follows Table.newConns RingOf t h)
    (positive : 1 ≤ unix clock.record) (late : ∀ c ∈ h key.srcIP, c.record ≤ clock.record)
    (conns : t'.newConns = t.newConns.insert key.srcIP
      (((t.newConns.lookup key.srcIP).getD NewConnRate.empty).record clock.record))
    (flows : t'.flows = t.flows.insert key f) :
    Follows Table.newConns RingOf t' (forget (birth h key.srcIP clock) t') := by
  have live : flowsFrom t' key.srcIP ≠ 0 := by
    have present : key ∈ t'.flows := by
      rw [flows, AList.mem_insert]
      exact Or.inl rfl
    exact (flowsFrom_pos present).ne'
  have kept {s : String} (other : s ≠ key.srcIP) : forget (birth h key.srcIP clock) t' s = h s := by
    unfold forget
    rw [birth_other other]
    split
    · next none_left => exact (follows.gone s (alive_insert flows s none_left)).2.symm
    · rfl
  refine ⟨fun s => ?_, fun s none_left => ?_⟩
  · rw [conns, lookup_insert_eq]
    by_cases same : s = key.srcIP
    · subst same
      rw [if_pos rfl, forget, if_neg live, birth_self]
      exact (follows.related key.srcIP).record positive late
    · rw [if_neg same, kept same]
      exact follows.related s
  · have other : s ≠ key.srcIP := by
      rintro rfl
      exact live none_left
    rw [conns, lookup_insert_eq, if_neg other, kept other]
    exact follows.gone s (alive_insert flows s none_left)

private theorem forget_sub {s : String} {c : Clock} (member : c ∈ forget h t s) : c ∈ h s := by
  unfold forget at member
  split at member
  · exact absurd member (by simp)
  · exact member

private theorem forgets_sub (tables : List Table) {s : String} {c : Clock}
    (member : c ∈ tables.foldl forget h s) : c ∈ h s := by
  induction tables generalizing h with
  | nil => exact member
  | cons t rest ih => exact forget_sub (ih member)

private theorem follows_removals (keys : List FlowKey) (distinct : keys.Nodup)
    (follows : Follows Table.newConns RingOf t h) (acc : Accounted t)
    (present : ∀ k ∈ keys, k ∈ t.flows) :
    Follows Table.newConns RingOf (keys.foldl Table.removeLocked t)
      ((removals t keys).foldl forget h) := by
  induction keys generalizing t h with
  | nil => exact follows
  | cons k keys ih =>
      obtain ⟨unique, distinct⟩ := List.nodup_cons.mp distinct
      have here := present k List.mem_cons_self
      apply ih distinct (follows.remove newConns_pruned ringOf_nil acc.counted here)
        (removeLocked_accounted acc here)
      intro j member
      rw [removeLocked_flows, AList.mem_erase]
      exact ⟨fun same => unique (same ▸ member), present j (List.mem_cons_of_mem k member)⟩

private theorem follows_looked {o : FlowOrder} {phase : Bool → Phase → Phase}
    {r : Option Flow × Table}
    (follows : Follows Table.newConns RingOf t h) (acc : Accounted t)
    (positive : 1 ≤ unix clock.record) (late : ∀ c ∈ h key.srcIP, c.record ≤ clock.record)
    (looked : Looked t o clock key phase r) :
    Follows Table.newConns RingOf r.2
      (if creates t key then forget (birth (forget h (t.evictIfFull o)) key.srcIP clock) r.2
        else forget h r.2) := by
  unfold creates
  cases looked with
  | hit found updated =>
      rw [found]
      exact follows.extend rfl (alive_insert rfl)
  | refused absent limited =>
      rw [absent, limited]
      exact follows.extend rfl fun _ none_left => none_left
  | created absent below made =>
      rw [absent, below]
      exact follows_create (follows.evict newConns_pruned ringOf_nil acc o) positive
        (fun c member => late c (forget_sub member)) rfl rfl

/-! Whole runs. -/

/-- The rings follow the births, and no birth lies ahead of the clock. -/
structure Ringed (s : State) : Prop where
  accounted : Accounted s.table
  follows : Follows Table.newConns RingOf s.table s.births
  past : ∀ src, ∀ c ∈ s.births src, c.record ≤ s.clock
  begun : 1 ≤ unix s.clock

private theorem note_sub {op : Op} {s : String} {c : Clock} {bound : Time}
    (member : c ∈ note t h op s) (past : ∀ c ∈ h s, c.record ≤ bound)
    (own : ∀ r ∈ readings op, r ≤ bound) : c.record ≤ bound := by
  have looked {o : FlowOrder} {clock : Clock} {key : FlowKey} {after : Table}
      (now : clock.record ≤ bound)
      (member : c ∈ (if creates t key then
        forget (birth (forget h (t.evictIfFull o)) key.srcIP clock) after else forget h after) s) :
      c.record ≤ bound := by
    split at member
    · have before := forget_sub member
      by_cases same : s = key.srcIP
      · subst same
        rw [birth_self] at before
        rcases List.mem_append.mp before with earlier | new
        · exact past c (forget_sub earlier)
        · rw [List.mem_singleton.mp new]
          exact now
      · rw [birth_other same] at before
        exact past c (forget_sub before)
    · exact past c (forget_sub member)
  cases op with
  | lookupOrCreate o clock srcIP dstIP protocol srcPort dstPort =>
      exact looked (own clock.record (by simp [readings])) member
  | updateTCPState o clock srcIP dstIP protocol srcPort dstPort g =>
      exact looked (own clock.record (by simp [readings])) member
  | delete srcIP dstIP protocol srcPort dstPort => exact past c (forget_sub member)
  | expire o now => exact past c (forgets_sub _ (forget_sub member))

private theorem follows_note {op : Op} (follows : Follows Table.newConns RingOf t h)
    (acc : Accounted t)
    {begun : Time} (positive : 1 ≤ unix begun) (later : ∀ r ∈ readings op, begun ≤ r)
    (past : ∀ src, ∀ c ∈ h src, c.record ≤ begun) :
    Follows Table.newConns RingOf (t.apply op) (note t h op) := by
  have recorded {clock : Clock} (now : begun ≤ clock.record) (src : String) :
      1 ≤ unix clock.record ∧ ∀ c ∈ h src, c.record ≤ clock.record :=
    ⟨Nat.le_trans positive (unix_mono now), fun c member => Nat.le_trans (past src c member) now⟩
  cases op with
  | lookupOrCreate o clock srcIP dstIP protocol srcPort dstPort =>
      obtain ⟨counts, late⟩ := recorded (later clock.record (by simp [readings])) _
      exact follows_looked follows acc counts late
        (lookupOrCreate_looked t o clock srcIP dstIP protocol srcPort dstPort)
  | updateTCPState o clock srcIP dstIP protocol srcPort dstPort g =>
      obtain ⟨counts, late⟩ := recorded (later clock.record (by simp [readings])) _
      exact follows_looked follows acc counts late
        (updateTCPState_looked t o clock srcIP dstIP protocol srcPort dstPort g)
  | delete srcIP dstIP protocol srcPort dstPort =>
      show Follows _ _ (t.delete srcIP dstIP protocol srcPort dstPort)
        (forget h (t.delete srcIP dstIP protocol srcPort dstPort))
      unfold Table.delete
      dsimp only
      split
      · next present => exact follows.remove newConns_pruned ringOf_nil acc.counted present
      · exact follows.extend rfl fun _ none_left => none_left
  | expire o now =>
      have removed := follows_removals (t.expiredKeys o now) (expiredKeys_nodup t o now) follows acc
        (expiredKeys_mem t o now)
      exact removed.extend rfl fun _ none_left => none_left

private theorem getLastD_latest {first : Time} {rest : List Time}
    (ordered : (first :: rest).Pairwise (· ≤ ·)) :
    first ≤ rest.getLastD first ∧ ∀ r ∈ rest, r ≤ rest.getLastD first := by
  rcases List.eq_nil_or_concat rest with rfl | ⟨earlier, last, rfl⟩
  · exact ⟨Nat.le_refl first, by simp⟩
  · rw [List.concat_eq_append] at ordered ⊢
    obtain ⟨front, inner⟩ := List.pairwise_cons.mp ordered
    obtain ⟨-, -, across⟩ := List.pairwise_append.mp inner
    rw [List.getLastD_concat]
    refine ⟨front last (by simp), ?_⟩
    intro r member
    rcases List.mem_append.mp member with before | same
    · exact across r before last (List.mem_singleton.mpr rfl)
    · exact Nat.le_of_eq (List.mem_singleton.mp same)

private theorem reachable_ringed {cfg : Config} {s : State}
    (reached : (counting cfg).Reachable Machine.any s) : Ringed s := by
  apply reached.invariant Ringed
  · rintro s ⟨table, births, begun⟩
    refine ⟨table ▸ newTable_accounted cfg, ?_, ?_, begun⟩
    · rw [table, births]
      exact ⟨fun _ => ringOf_nil, fun _ _ => ⟨rfl, rfl⟩⟩
    · intro src c member
      rw [births] at member
      exact absurd member (by simp)
  · intro s call s' _ ringed _ taken
    cases call with
    | flows op =>
        obtain ⟨ordered, taken⟩ := Option.ite_none_right_eq_some.mp taken
        obtain rfl := Option.some.inj taken
        obtain ⟨forward, latest⟩ := getLastD_latest ordered
        have later : ∀ r ∈ readings op, s.clock ≤ r := (List.pairwise_cons.mp ordered).1
        refine ⟨apply_accounted ringed.accounted op,
          follows_note ringed.follows ringed.accounted ringed.begun later ringed.past, ?_,
          Nat.le_trans ringed.begun (unix_mono forward)⟩
        intro src c member
        exact note_sub member (fun c before => Nat.le_trans (ringed.past src c before) forward)
          latest
    | recordDestPort srcIP dstPort =>
        obtain rfl := Option.some.inj taken
        refine ⟨recordDestPort_accounted ringed.accounted srcIP dstPort, ?_, ringed.past,
          ringed.begun⟩
        obtain ⟨ports, same⟩ := recordDestPort_frame s.table srcIP dstPort
        show Follows _ _ (s.table.recordDestPort srcIP dstPort) s.births
        rw [same]
        exact ⟨ringed.follows.related, ringed.follows.gone⟩

/-- The flows of a source, of those created since it last had no live flow, that were created
in the ten seconds up to `now` by the given reading. -/
def recent (reading : Clock → Time) (h : List Clock) (now : Time) : Nat :=
  h.countP fun c => decide (unix now < unix (reading c) + 10 ∧ unix (reading c) ≤ unix now)

/-- Ten times the rate is the number of flows recorded for the source in the last ten seconds,
and hence of those created then, if no creation straddles the turn of a second. -/
theorem rate_is_sliding_count {cfg : Config} {s : State}
    (reached : (counting cfg).Reachable Machine.any s) (srcIP : String) (now : Time)
    (later : s.clock ≤ now) :
    s.table.newConnectionRate srcIP now * 10 =
        recent Clock.record (s.births (normalizeIP srcIP)) now ∧
      ((∀ c ∈ s.births (normalizeIP srcIP), unix c.created = unix c.record) →
        s.table.newConnectionRate srcIP now * 10 =
          recent Clock.created (s.births (normalizeIP srcIP)) now) := by
  have ringed := reachable_ringed reached
  have late : ∀ c ∈ s.births (normalizeIP srcIP), c.record ≤ now := fun c member =>
    Nat.le_trans (ringed.past _ c member) later
  have sum := (ringed.follows.related (normalizeIP srcIP)).windowSum late
  have counted : s.table.newConnectionRate srcIP now * 10 =
      recent Clock.record (s.births (normalizeIP srcIP)) now := by
    have both : recent Clock.record (s.births (normalizeIP srcIP)) now =
        ((s.table.newConns.lookup (normalizeIP srcIP)).getD NewConnRate.empty).windowSum now := by
      rw [sum]
      apply List.countP_congr
      intro c member
      have before := unix_mono (late c member)
      rw [decide_eq_true_eq, decide_eq_true_eq]
      exact and_iff_left before
    rw [both]
    have ten : ((connRateWindowSecs : Nat) : ℚ) = 10 := rfl
    unfold Table.newConnectionRate
    cases s.table.newConns.lookup (normalizeIP srcIP) with
    | none => rw [zero_mul]; rfl
    | some r =>
        show (r.windowSum now : ℚ) / connRateWindowSecs * 10 = _
        rw [ten]
        exact div_mul_cancel₀ _ (by norm_num)
  refine ⟨counted, fun exact => ?_⟩
  rw [counted]
  congr 1
  apply List.countP_congr
  intro c member
  rw [exact c member]

def secondsIn (n : Nat) : Time := n * 1000000000

def openAt (n : Nat) (port : UInt16) : Call :=
  .flows (.lookupOrCreate RangeOrder.stored ⟨secondsIn n, secondsIn n, secondsIn n⟩ "10.0.1.100"
    "10.0.2.50" "TCP" port 443)

/-- A flow in second 5, two in second 7: at 15 the first has left the window. -/
theorem three_flows_counted : ∃ s, (counting defaultConfig).Reachable Machine.any s ∧
    s.table.newConnectionRate "10.0.1.100" (secondsIn 15) * 10 = 2 := by
  have start : (counting defaultConfig).Reachable Machine.any
      ⟨newTable defaultConfig, fun _ => [], secondsIn 1⟩ := .init ⟨rfl, rfl, by decide⟩
  obtain ⟨s, ran, clock, counted⟩ : ∃ s, (counting defaultConfig).run
      ⟨newTable defaultConfig, fun _ => [], secondsIn 1⟩
        [openAt 5 40001, openAt 7 40002, openAt 7 40003] = some s ∧ s.clock = secondsIn 7 ∧
      recent Clock.record (s.births (normalizeIP "10.0.1.100")) (secondsIn 15) = 2 :=
    ⟨_, rfl, rfl, by decide +kernel⟩
  have reached := start.of_run _ ran
  refine ⟨s, reached, ?_⟩
  rw [(rate_is_sliding_count reached "10.0.1.100" (secondsIn 15) (by rw [clock]; decide)).1,
    counted]
  rfl

end L3Firewall.Conntrack.SlidingCount
