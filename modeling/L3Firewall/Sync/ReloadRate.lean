/- Sync/ReloadRate
   source: internal/syncer/syncer.go
   digest: Which reloads of the syncer its rate limiter keeps apart. -/

import L3Firewall.Sync.Collapse
import L3Firewall.Sync.Steps
import Mathlib.Data.List.Pairwise

set_option autoImplicit false
set_option relaxedAutoImplicit false

namespace L3Firewall.Sync.ReloadRate

open Foundation.Runs
open Sync.Core
open Sync.Collapse (flushed processEvents_cases)
open Sync.Steps (flushPending_cases resync_syncer)

def watchReconnectDelay : Int := 100000000

/-! The syncer with its clock. -/

/-- What the outside contributes to one step, with the clock readings taken in it: for a Get
those before and after a call of the callback. -/
inductive Tick
  | get (resp : GetResponse) (fn : Outcome) (now after : Time)
  | opened
  | response (events : List Event) (first last : Flush)
  | timer (e : Flush)
  | terminated
  | delayElapsed (now : Time)
  | stop

def Tick.input : Tick → Input
  | .get resp fn _ _ => .get resp fn
  | .opened => .opened
  | .response events first last => .response events first last
  | .timer e => .timer e
  | .terminated => .terminated
  | .delayElapsed _ => .delayElapsed
  | .stop => .stop

def Tick.readings : Tick → List Time
  | .get _ _ now after => [now, after]
  | .response _ first last => [first.now, first.after, last.now, last.after]
  | .timer e => [e.now, e.after]
  | .delayElapsed now => [now]
  | .opened | .terminated | .stop => []

def fires (w : Watcher) (e : Flush) : Bool := w.pendingSet && elapsed w.lastReload e.now

/-- A Get brings content that the callback is called with. -/
def loads (s : Syncer) : GetResponse → Bool
  | .value bytes => decide (bytes.length ≤ maxPolicySize) && decide (bytes ≠ s.lastPolicy)
  | .failed | .missing => false

def flushedAt (w : Watcher) (e : Flush) : List Time := if fires w e then [e.now] else []

/-- The times at which one step invokes the callback. -/
def invocations (w : Watcher) : Tick → List Time
  | .get resp _ now _ => if loads w.syncer resp then [now] else []
  | .response events first last => flushedAt w first ++
      flushedAt ((collapse events).foldl Watcher.processEvent (w.flushPending first)) last
  | .timer e => flushedAt w e
  | .opened | .terminated | .delayElapsed _ | .stop => []

/-- `clock` is the last reading, `armed` the one at which the last reconnect delay began,
`log` holds the times of all invocations so far. -/
structure Timed where
  state : State
  clock : Time
  armed : Option Time
  log : List Time

/-- A reconnect delay begins when the Get of the resync is done. -/
def Timed.rearmed (s : Timed) : Tick → Option Time
  | .get _ _ _ after => if s.state.control = .reconnecting then some after else s.armed
  | _ => s.armed

/-- The timer of a reconnect delay does not fire early. -/
def Timed.waited (s : Timed) : Tick → Bool
  | .delayElapsed now => s.armed.all fun (began : Time) =>
      decide (watchReconnectDelay ≤ (now : Int) - began)
  | _ => true

/-- The syncer under a clock that does not go back. -/
def limiter : Machine Timed Tick where
  init s := s = ⟨initial, 0, none, []⟩
  next s a :=
    if (s.clock :: a.readings).Pairwise (· ≤ ·) ∧ s.waited a = true then
      (step s.state a.input).map fun state =>
        { state := state
          clock := a.readings.getLastD s.clock
          armed := s.rearmed a
          log := s.log ++ invocations s.state.watcher a }
    else none

def Apart (earlier later : Time) : Prop := minReloadInterval ≤ (later : Int) - earlier

instance (earlier later : Time) : Decidable (Apart earlier later) :=
  inferInstanceAs (Decidable (minReloadInterval ≤ (later : Int) - earlier))

def Spaced (log : List Time) : Prop := log.Pairwise Apart

/-! One step as a sequence of flushes. -/

def Timed.flush (s : Timed) (e : Flush) : Timed :=
  { s with
    state := { s.state with watcher := s.state.watcher.flushPending e }
    clock := e.after
    log := s.log ++ flushedAt s.state.watcher e }

def Timed.feed (s : Timed) (events : List Event) : Timed :=
  { s with
    state :=
      { s.state with
        watcher := (collapse events).foldl Watcher.processEvent s.state.watcher } }

/-- Before the first reload of the watch loop and the first reconnect, the limiter knows
nothing of the initial load. Then a flush must come late enough by itself. -/
def PacedFlush (s : Timed) (e : Flush) : Prop :=
  fires s.state.watcher e = true → s.armed = none → s.state.watcher.lastReload = none →
    ∀ earlier ∈ s.log, Apart earlier e.now

/-- What the limiter leaves to chance: the content of a Get goes to the callback at once, and
the first flush may follow the initial load at once. -/
def Paced (s : Timed) : Tick → Prop
  | .get resp _ now _ =>
      loads s.state.watcher.syncer resp = true → ∀ earlier ∈ s.log, Apart earlier now
  | .response events first last =>
      PacedFlush s first ∧ PacedFlush ((s.flush first).feed events) last
  | .timer e => PacedFlush s e
  | .opened | .terminated | .delayElapsed _ | .stop => True

/-- What the limiter does know: every invocation is behind its own record, behind the last
reconnect delay, or it is the initial load. -/
structure Kept (s : Timed) : Prop where
  past : ∀ t ∈ s.log, t ≤ s.clock
  covered : ∀ t ∈ s.log, (∃ r, s.state.watcher.lastReload = some r ∧ t ≤ r) ∨
    (∃ a, s.armed = some a ∧ t ≤ a) ∨ s.armed = none ∧ s.state.watcher.lastReload = none
  delayed : ∀ a, s.armed = some a → s.state.control = .delaying ∨ s.state.control = .stopped ∨
    watchReconnectDelay ≤ (s.clock : Int) - a
  fresh : s.state.control = .starting → s.armed = none ∧ s.state.watcher.lastReload = none

private theorem gap_mono {d : Int} {a a' b b' : Nat} (gap : d ≤ (b : Int) - a) (before : a' ≤ a)
    (after : b ≤ b') : d ≤ (b' : Int) - a' := by
  omega

private theorem spaced_snoc {log : List Time} {t : Time} (spaced : Spaced log) :
    Spaced (log ++ [t]) ↔ ∀ earlier ∈ log, Apart earlier t := by
  unfold Spaced
  rw [List.pairwise_append]
  constructor
  · rintro ⟨-, -, across⟩ earlier member
    exact across earlier member t (List.mem_singleton.mpr rfl)
  · intro apart
    refine ⟨spaced, List.pairwise_singleton _ _, ?_⟩
    intro earlier member later last
    rw [List.mem_singleton.mp last]
    exact apart earlier member

private theorem flushPending_fires {w : Watcher} {e : Flush} (fired : fires w e = true) :
    w.flushPending e = flushed w e := by
  obtain ⟨pending, late⟩ := (Bool.and_eq_true _ _).mp fired
  rcases flushPending_cases w e with ⟨empty | early, -⟩ | ⟨-, passed⟩
  · exact absurd pending (by simp [empty])
  · exact absurd late (by simp [early])
  · exact passed

private theorem flushPending_quiet {w : Watcher} {e : Flush} (quiet : fires w e = false) :
    w.flushPending e = w := by
  rcases flushPending_cases w e with ⟨-, same⟩ | ⟨⟨pending, late⟩, -⟩
  · exact same
  · exact absurd quiet (by simp [fires, pending, late])

private theorem processEvents_frame (events : List Event) (w : Watcher) :
    (events.foldl Watcher.processEvent w).lastReload = w.lastReload ∧
      (events.foldl Watcher.processEvent w).syncer.calls = w.syncer.calls := by
  rcases processEvents_cases w events with ⟨-, same⟩ | ⟨-, v, -, last⟩
  · rw [same]
    exact ⟨rfl, rfl⟩
  · rw [last]
    exact ⟨rfl, rfl⟩

private theorem resync_lastReload (w : Watcher) (resp : GetResponse) (fn : Outcome) :
    (w.resync resp fn).lastReload = w.lastReload := by
  unfold Watcher.resync
  dsimp only
  split <;> rfl

variable {s s' : Timed} {e : Flush}

private theorem Kept.flush (kept : Kept s) (watching : s.state.control = .watching)
    (now : s.clock ≤ e.now) (after : e.now ≤ e.after) : Kept (s.flush e) := by
  have later (a : Time) (armed : s.armed = some a) :
      watchReconnectDelay ≤ (e.after : Int) - a := by
    rcases kept.delayed a armed with delaying | stopped | passed
    · exact absurd (watching.symm.trans delaying) (by simp)
    · exact absurd (watching.symm.trans stopped) (by simp)
    · exact gap_mono passed (Nat.le_refl a) (Nat.le_trans now after)
  cases fired : fires s.state.watcher e with
  | true =>
      have log : (s.flush e).log = s.log ++ [e.now] := by
        rw [Timed.flush, flushedAt, fired]
        rfl
      have reload : (s.flush e).state.watcher.lastReload = some e.after :=
        congrArg Watcher.lastReload (flushPending_fires fired)
      have upTo : ∀ t ∈ (s.flush e).log, t ≤ e.after := by
        intro t member
        rw [log] at member
        rcases List.mem_append.mp member with before | last
        · exact Nat.le_trans (kept.past t before) (Nat.le_trans now after)
        · rw [List.mem_singleton.mp last]
          exact after
      refine ⟨upTo, ?_, ?_, ?_⟩
      · intro t member
        exact Or.inl ⟨e.after, reload, upTo t member⟩
      · intro a armed
        exact Or.inr (Or.inr (later a armed))
      · intro starting
        exact absurd (watching.symm.trans starting) (by simp)
  | false =>
      have log : (s.flush e).log = s.log := by
        rw [Timed.flush, flushedAt, fired]
        exact List.append_nil _
      have same : (s.flush e).state.watcher = s.state.watcher := flushPending_quiet fired
      refine ⟨?_, ?_, ?_, ?_⟩
      · intro t member
        rw [log] at member
        exact Nat.le_trans (kept.past t member) (Nat.le_trans now after)
      · intro t member
        rw [log] at member
        rw [same]
        exact kept.covered t member
      · intro a armed
        exact Or.inr (Or.inr (later a armed))
      · intro starting
        exact absurd (watching.symm.trans starting) (by simp)

private theorem Kept.flush_spaced_iff (kept : Kept s) (spaced : Spaced s.log)
    (watching : s.state.control = .watching) (now : s.clock ≤ e.now) :
    Spaced (s.flush e).log ↔ PacedFlush s e := by
  rw [Timed.flush]
  cases fired : fires s.state.watcher e with
  | false =>
      simp only [flushedAt, fired, PacedFlush, if_false, List.append_nil, Bool.false_eq_true,
        false_implies, iff_true]
      exact spaced
  | true =>
      simp only [flushedAt, fired, PacedFlush, if_true, true_implies]
      rw [spaced_snoc spaced]
      constructor
      · intro apart _ _
        exact apart
      · intro paced earlier member
        obtain ⟨-, late⟩ := (Bool.and_eq_true _ _).mp fired
        rcases kept.covered earlier member with
          ⟨r, reload, before⟩ | ⟨a, armed, before⟩ | ⟨armed, reload⟩
        · rw [reload, elapsed, decide_eq_true_eq] at late
          exact gap_mono late before (Nat.le_refl e.now)
        · rcases kept.delayed a armed with delaying | stopped | passed
          · exact absurd (watching.symm.trans delaying) (by simp)
          · exact absurd (watching.symm.trans stopped) (by simp)
          · -- The reconnect delay is as long as the reload interval.
            exact gap_mono (d := minReloadInterval) passed before now
        · exact paced armed reload earlier member

private theorem Kept.feed (kept : Kept s) (events : List Event) : Kept (s.feed events) := by
  have reload : (s.feed events).state.watcher.lastReload = s.state.watcher.lastReload :=
    (processEvents_frame _ _).1
  refine ⟨kept.past, ?_, kept.delayed, ?_⟩
  · rw [reload]
    exact kept.covered
  · rw [reload]
    exact kept.fresh

/-! Whole steps. -/

private theorem limiter_next {a : Tick} (taken : limiter.next s a = some s') :
    (s.clock :: a.readings).Pairwise (· ≤ ·) ∧ s.waited a = true ∧
      ∃ state, step s.state a.input = some state ∧
        s' = ⟨state, a.readings.getLastD s.clock, s.rearmed a,
          s.log ++ invocations s.state.watcher a⟩ := by
  obtain ⟨⟨ordered, waited⟩, taken⟩ := Option.ite_none_right_eq_some.mp taken
  obtain ⟨state, stepped, same⟩ := Option.map_eq_some_iff.mp taken
  exact ⟨ordered, waited, state, stepped, same.symm⟩

private theorem limiter_step {a : Tick} (taken : limiter.next s a = some s') :
    step s.state a.input = some s'.state := by
  obtain ⟨-, -, state, stepped, rfl⟩ := limiter_next taken
  exact stepped

private theorem step_get {st st' : State} {resp : GetResponse} {fn : Outcome}
    (stepped : step st (.get resp fn) = some st') :
    (st.control = .starting ∧ st'.control = .opening ∨
      st.control = .reconnecting ∧ st'.control = .delaying) ∧
    st'.watcher.lastReload = st.watcher.lastReload := by
  obtain ⟨control, w⟩ := st
  cases control with
  | starting =>
      obtain rfl := Option.some.inj stepped
      exact ⟨Or.inl ⟨rfl, rfl⟩, rfl⟩
  | reconnecting =>
      obtain rfl := Option.some.inj stepped
      exact ⟨Or.inr ⟨rfl, rfl⟩, resync_lastReload w resp fn⟩
  | opening | watching | delaying | stopped => exact absurd stepped (by simp [step])

private theorem Kept.get {resp : GetResponse} {fn : Outcome} {now after : Time} (kept : Kept s)
    (spaced : Spaced s.log) (taken : limiter.next s (.get resp fn now after) = some s') :
    Kept s' ∧ (Spaced s'.log ↔ Paced s (.get resp fn now after)) := by
  obtain ⟨ordered, -, state, stepped, rfl⟩ := limiter_next taken
  obtain ⟨⟨first, -⟩, second⟩ : (s.clock ≤ now ∧ s.clock ≤ after) ∧ now ≤ after := by
    simpa [Tick.readings] using ordered
  obtain ⟨moved, reload⟩ := step_get stepped
  have upTo : ∀ t ∈ s.log ++ invocations s.state.watcher (.get resp fn now after), t ≤ after := by
    intro t member
    rcases List.mem_append.mp member with before | last
    · exact Nat.le_trans (kept.past t before) (Nat.le_trans first second)
    · rw [invocations] at last
      split at last
      · rw [List.mem_singleton.mp last]
        exact second
      · exact absurd last (by simp)
  constructor
  · rcases moved with ⟨starting, opening⟩ | ⟨reconnecting, delaying⟩
    · -- The initial load: nothing is recorded of it.
      have armed : s.rearmed (.get resp fn now after) = none := by
        rw [Timed.rearmed, starting]
        exact (kept.fresh starting).1
      refine ⟨upTo, ?_, ?_, ?_⟩
      · intro t _
        exact Or.inr (Or.inr ⟨armed, reload.trans (kept.fresh starting).2⟩)
      · intro a begun
        exact absurd (armed.symm.trans begun) (by simp)
      · intro again
        exact absurd (opening.symm.trans again) (by simp)
    · -- The resync: the delay that begins now covers every invocation.
      have armed : s.rearmed (.get resp fn now after) = some after := by
        rw [Timed.rearmed, reconnecting]
        rfl
      refine ⟨upTo, ?_, ?_, ?_⟩
      · intro t member
        exact Or.inr (Or.inl ⟨after, armed, upTo t member⟩)
      · intro _ _
        exact Or.inl delaying
      · intro again
        exact absurd (delaying.symm.trans again) (by simp)
  · show Spaced (s.log ++ if loads s.state.watcher.syncer resp then [now] else []) ↔
      (loads s.state.watcher.syncer resp = true → ∀ earlier ∈ s.log, Apart earlier now)
    cases loaded : loads s.state.watcher.syncer resp with
    | true =>
        rw [if_pos rfl, spaced_snoc spaced]
        exact ⟨fun apart _ => apart, fun apart => apart rfl⟩
    | false =>
        rw [if_neg (by simp), List.append_nil]
        exact ⟨fun _ impossible => absurd impossible (by simp), fun _ => spaced⟩

private theorem Kept.response {events : List Event} {first last : Flush} (kept : Kept s)
    (spaced : Spaced s.log) (taken : limiter.next s (.response events first last) = some s') :
    Kept s' ∧ (Spaced s'.log ↔ Paced s (.response events first last)) := by
  obtain ⟨ordered, -, state, stepped, rfl⟩ := limiter_next taken
  obtain ⟨watching, stepped⟩ := Option.ite_none_right_eq_some.mp stepped
  obtain rfl := Option.some.inj stepped
  have times : s.clock ≤ first.now ∧ first.now ≤ first.after ∧ first.after ≤ last.now ∧
      last.now ≤ last.after := by
    simp only [Tick.readings, List.pairwise_cons, List.mem_cons, forall_eq_or_imp] at ordered
    exact ⟨ordered.1.1, ordered.2.1.1, ordered.2.2.1.1, ordered.2.2.2.1.1⟩
  obtain ⟨begin, called, between, again⟩ := times
  have whole : Timed.mk
      { s.state with watcher := s.state.watcher.processResponse events first last }
      ((Tick.response events first last).readings.getLastD s.clock)
      (s.rearmed (.response events first last))
      (s.log ++ invocations s.state.watcher (.response events first last)) =
      ((s.flush first).feed events).flush last := by
    simp only [Timed.flush, Timed.feed, invocations, List.append_assoc]
    rfl
  have fed : Kept ((s.flush first).feed events) := (kept.flush watching begin called).feed events
  rw [whole]
  refine ⟨fed.flush watching between again, ?_⟩
  constructor
  · intro apart
    have early : Spaced (s.flush first).log := apart.sublist (List.sublist_append_left _ _)
    exact ⟨(kept.flush_spaced_iff spaced watching begin).mp early,
      (fed.flush_spaced_iff early watching between).mp apart⟩
  · rintro ⟨early, late⟩
    have apart := (kept.flush_spaced_iff spaced watching begin).mpr early
    exact (fed.flush_spaced_iff apart watching between).mpr late

private theorem Kept.timer (kept : Kept s) (spaced : Spaced s.log)
    (taken : limiter.next s (.timer e) = some s') :
    Kept s' ∧ (Spaced s'.log ↔ Paced s (.timer e)) := by
  obtain ⟨ordered, -, state, stepped, rfl⟩ := limiter_next taken
  obtain ⟨⟨watching, -⟩, stepped⟩ := Option.ite_none_right_eq_some.mp stepped
  obtain rfl := Option.some.inj stepped
  obtain ⟨⟨now, -⟩, after⟩ : (s.clock ≤ e.now ∧ s.clock ≤ e.after) ∧ e.now ≤ e.after := by
    simpa [Tick.readings] using ordered
  exact ⟨kept.flush watching now after, kept.flush_spaced_iff spaced watching now⟩

private theorem Kept.quiet {control : Control} {clock : Time} (kept : Kept s)
    (left : control ≠ .starting)
    (later : s.clock ≤ clock)
    (delayed : ∀ began, s.armed = some began → control = .delaying ∨ control = .stopped ∨
      watchReconnectDelay ≤ (clock : Int) - began) :
    Kept ⟨⟨control, s.state.watcher⟩, clock, s.armed, s.log⟩ := by
  refine ⟨?_, kept.covered, delayed, ?_⟩
  · intro t member
    exact Nat.le_trans (kept.past t member) later
  · intro starting
    exact absurd starting left

private theorem Kept.step {a : Tick} (kept : Kept s) (spaced : Spaced s.log)
    (taken : limiter.next s a = some s') : Kept s' ∧ (Spaced s'.log ↔ Paced s a) := by
  have silent {s' : Timed} (same : s'.log = s.log ++ []) : Spaced s'.log ↔ True := by
    rw [same, List.append_nil]
    exact iff_true_intro spaced
  cases a with
  | get resp fn now after => exact kept.get spaced taken
  | response events first last => exact kept.response spaced taken
  | timer e => exact kept.timer spaced taken
  | opened =>
      obtain ⟨-, -, state, stepped, rfl⟩ := limiter_next taken
      obtain ⟨opening, stepped⟩ := Option.ite_none_right_eq_some.mp stepped
      obtain rfl := Option.some.inj stepped
      refine ⟨?_, silent rfl⟩
      simp only [invocations, List.append_nil]
      apply kept.quiet (by simp) (Nat.le_refl _)
      intro began armed
      rcases kept.delayed began armed with delaying | stopped | passed
      · exact absurd (opening.symm.trans delaying) (by simp)
      · exact absurd (opening.symm.trans stopped) (by simp)
      · exact Or.inr (Or.inr passed)
  | terminated =>
      obtain ⟨-, -, state, stepped, rfl⟩ := limiter_next taken
      obtain ⟨watching, stepped⟩ := Option.ite_none_right_eq_some.mp stepped
      obtain rfl := Option.some.inj stepped
      refine ⟨?_, silent rfl⟩
      simp only [invocations, List.append_nil]
      apply kept.quiet (by simp) (Nat.le_refl _)
      intro began armed
      rcases kept.delayed began armed with delaying | stopped | passed
      · exact absurd (watching.symm.trans delaying) (by simp)
      · exact absurd (watching.symm.trans stopped) (by simp)
      · exact Or.inr (Or.inr passed)
  | delayElapsed now =>
      obtain ⟨ordered, waited, state, stepped, rfl⟩ := limiter_next taken
      obtain ⟨-, stepped⟩ := Option.ite_none_right_eq_some.mp stepped
      obtain rfl := Option.some.inj stepped
      have later : s.clock ≤ now := by simpa [Tick.readings] using ordered
      refine ⟨?_, silent rfl⟩
      simp only [invocations, List.append_nil]
      apply kept.quiet (by simp) later
      intro began armed
      rw [Timed.waited, armed, Option.all_some, decide_eq_true_eq] at waited
      exact Or.inr (Or.inr waited)
  | stop =>
      obtain ⟨-, -, state, stepped, rfl⟩ := limiter_next taken
      have stopped : state = { s.state with control := .stopped } := by
        obtain ⟨⟨control, w⟩, clock, armed, log⟩ := s
        cases control with
        | watching | reconnecting | delaying => exact (Option.some.inj stepped).symm
        | starting | opening | stopped => exact absurd stepped (by simp [Core.step, Tick.input])
      refine ⟨?_, silent rfl⟩
      rw [stopped]
      simp only [invocations, List.append_nil]
      apply kept.quiet (by simp) (Nat.le_refl _)
      intro _ _
      exact Or.inr (Or.inl rfl)

/-! The log has one entry for each call of the callback. -/

private theorem flushPending_calls (w : Watcher) (e : Flush) :
    (w.flushPending e).syncer.calls.length = w.syncer.calls.length + (flushedAt w e).length := by
  cases fired : fires w e with
  | false =>
      rw [flushPending_quiet fired, flushedAt, fired]
      rfl
  | true =>
      rw [flushPending_fires fired, flushedAt, fired]
      exact List.length_append

private theorem loadCurrent_calls (s : Syncer) (resp : GetResponse) (fn : Outcome) :
    (s.loadCurrent resp fn).2.calls.length =
      s.calls.length + if loads s resp then 1 else 0 := by
  cases resp with
  | failed => rfl
  | missing => rfl
  | value bytes =>
      unfold Syncer.loadCurrent Syncer.applyPolicy
      dsimp only
      by_cases oversized : maxPolicySize < bytes.length
      · have useless : loads s (.value bytes) = false := by
          simp [loads, Nat.not_le.mpr oversized]
        rw [if_pos oversized, useless]
        rfl
      · by_cases same : bytes = s.lastPolicy
        · have known : loads s (.value bytes) = false := by simp [loads, same]
          rw [if_neg oversized, if_pos same, known]
          rfl
        · have new : loads s (.value bytes) = true := by
            simp [loads, same, Nat.le_of_not_lt oversized]
          rw [if_neg oversized, if_neg same, new]
          exact List.length_append

private theorem step_calls {a : Tick} (taken : limiter.next s a = some s') :
    s'.state.watcher.syncer.calls.length =
      s.state.watcher.syncer.calls.length + (invocations s.state.watcher a).length := by
  have stepped := limiter_step taken
  cases a with
  | get resp fn now after =>
      have loaded : s'.state.watcher.syncer = (s.state.watcher.syncer.loadCurrent resp fn).2 := by
        obtain ⟨⟨control, w⟩, clock, armed, log⟩ := s
        cases control with
        | starting =>
            rw [← Option.some.inj stepped]
        | reconnecting =>
            rw [← Option.some.inj stepped]
            exact resync_syncer w resp fn
        | opening | watching | delaying | stopped =>
            exact absurd stepped (by simp [Core.step, Tick.input])
      rw [loaded, loadCurrent_calls, invocations]
      split <;> rfl
  | response events first last =>
      obtain ⟨-, same⟩ := Option.ite_none_right_eq_some.mp stepped
      rw [← Option.some.inj same, invocations, List.length_append, ← Nat.add_assoc,
        ← flushPending_calls,
        ← (processEvents_frame (collapse events) (s.state.watcher.flushPending first)).2]
      exact flushPending_calls _ last
  | timer e =>
      obtain ⟨-, same⟩ := Option.ite_none_right_eq_some.mp stepped
      rw [← Option.some.inj same]
      exact flushPending_calls _ e
  | opened | terminated | delayElapsed =>
      obtain ⟨-, same⟩ := Option.ite_none_right_eq_some.mp stepped
      rw [← Option.some.inj same]
      rfl
  | stop =>
      obtain ⟨⟨control, w⟩, clock, armed, log⟩ := s
      cases control with
      | watching | reconnecting | delaying =>
          rw [← Option.some.inj stepped]
          rfl
      | starting | opening | stopped => exact absurd stepped (by simp [Core.step, Tick.input])

theorem reachable_log (reached : limiter.Reachable Machine.any s) :
    s.log.length = s.state.watcher.syncer.calls.length := by
  apply reached.invariant (fun s => s.log.length = s.state.watcher.syncer.calls.length)
  · rintro s rfl
    rfl
  · intro s a s' _ same _ taken
    obtain ⟨-, -, state, -, rfl⟩ := limiter_next taken
    rw [step_calls taken, List.length_append, same]

/-- What `Paced` asks, of the steps that can be taken. -/
def PacedStep (s : Timed) (a : Tick) : Prop := (limiter.next s a).isSome = true → Paced s a

/-- Every run: all invocations made so far are far enough apart after every step if and only if
each Get that brings new content, and the first flush after the initial load, come late
enough by themselves. -/
theorem reloads_spaced_iff (ticks : List Tick) :
    limiter.Along (fun s a => ∀ s', limiter.next s a = some s' → Spaced s'.log)
        ⟨initial, 0, none, []⟩ ticks ↔
      limiter.Along PacedStep ⟨initial, 0, none, []⟩ ticks := by
  have start : Kept ⟨initial, 0, none, []⟩ ∧ Spaced [] :=
    ⟨⟨by simp, by simp, by simp, fun _ => ⟨rfl, rfl⟩⟩, List.Pairwise.nil⟩
  apply Machine.Along.congr (fun s => Kept s ∧ Spaced s.log) ?_ ?_ start
    (Machine.Along.any limiter _ ticks)
  · rintro s a ⟨kept, spaced⟩ -
    constructor
    · intro apart enabled
      obtain ⟨s', taken⟩ := Option.isSome_iff_exists.mp enabled
      exact (kept.step spaced taken).2.mp (apart s' taken)
    · intro paced s' taken
      exact (kept.step spaced taken).2.mpr (paced (by rw [taken]; rfl))
  · rintro s a s' ⟨kept, spaced⟩ - apart taken
    exact ⟨(kept.step spaced taken).1, apart s' taken⟩

/-- A policy at start, and a new one a millisecond later. -/
def quickChange : List Tick :=
  [.get (.value [65]) .ok 0 0, .opened,
    .response [.put [66]] ⟨1000000, 1000000, .ok⟩ ⟨1000000, 1000000, .ok⟩]

/-- The callback is invoked twice within a millisecond. -/
theorem quick_change_unlimited :
    ∃ s, limiter.run ⟨initial, 0, none, []⟩ quickChange = some s ∧ s.log = [0, 1000000] ∧
      s.state.watcher.syncer.calls.map (·.policy) = [[65], [66]] ∧ ¬ Spaced s.log := by
  have close : ¬ Spaced [0, 1000000] := by
    unfold Spaced
    decide
  exact ⟨_, rfl, rfl, rfl, close⟩

end L3Firewall.Sync.ReloadRate
