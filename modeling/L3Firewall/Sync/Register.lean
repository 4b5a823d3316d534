/- Sync/Register
   source: internal/syncer/syncer.go
   digest: The syncer against a shared register: which writes a reconnect can lose. -/

import L3Firewall.Sync.Steps
import Mathlib.Data.List.Basic

set_option autoImplicit false
set_option relaxedAutoImplicit false

namespace L3Firewall.Sync.Register

open Foundation.Runs
open Sync.Core
open Steps

abbrev Content := { p : Policy // p ≠ [] ∧ p.length ≤ maxPolicySize }

section Content

variable {w : Watcher}

/-- The content processed last once the given writes have been. -/
def processed (w : Watcher) (queue : List Content) : Policy :=
  (queue.getLast?.map Subtype.val).getD w.syncer.lastPolicy

private theorem flushPending_lastPolicy (w : Watcher) (e : Flush) :
    (w.flushPending e).syncer.lastPolicy = w.syncer.lastPolicy := by
  rcases flushPending_cases w e with ⟨-, same⟩ | ⟨-, passed⟩
  · rw [same]
  · rw [passed]
    rfl

private theorem processEvent_lastPolicy (w : Watcher) (v : Content) :
    (w.processEvent (.put v.1)).syncer.lastPolicy = v.1 := by
  have size := v.2.2
  rcases processEvent_put_cases w v.1 with ⟨oversized | known, same⟩ | ⟨-, queued⟩
  · omega
  · rw [same]
    exact known.symm
  · rw [queued]

private theorem processEvents_lastPolicy (queue : List Content) (w : Watcher) :
    ((queue.map fun v => Event.put v.1).foldl Watcher.processEvent w).syncer.lastPolicy =
      processed w queue := by
  induction queue generalizing w with
  | nil => rfl
  | cons v queue ih =>
      rw [List.map_cons, List.foldl_cons, ih, processed, processed, processEvent_lastPolicy,
        List.getLast?_cons]
      cases queue.getLast? <;> rfl

private theorem processResponse_lastPolicy (w : Watcher) (queue : List Content)
    (first last : Flush) :
    (w.processResponse (queue.map fun v => Event.put v.1) first last).syncer.lastPolicy =
      processed w queue := by
  obtain ⟨kept, same, collapsed⟩ : ∃ kept : List Content,
      kept.getLast? = queue.getLast? ∧
        collapse (queue.map fun v => Event.put v.1) = kept.map fun v => Event.put v.1 := by
    unfold collapse
    split
    · next oversized =>
      rw [List.length_map] at oversized
      refine ⟨queue.drop (queue.length - 1), ?_, by rw [List.length_map, List.map_drop]⟩
      rw [List.getLast?_drop, if_neg (by omega)]
    · exact ⟨queue, rfl, rfl⟩
  unfold Watcher.processResponse
  rw [flushPending_lastPolicy, collapsed, processEvents_lastPolicy, processed, processed, same,
    flushPending_lastPolicy]

private theorem resync_lastPolicy (w : Watcher) (v : Content) (fn : Outcome) :
    (w.resync (.value v.1) fn).syncer.lastPolicy = v.1 := by
  rw [resync_syncer]
  rcases loadCurrent_cases w.syncer (.value v.1) fn with ⟨oversized, -⟩ |
    ⟨bytes, read, same, loaded⟩ | ⟨bytes, read, -, loaded⟩
  · have size := v.2.2
    have above := oversized v.1 rfl
    omega
  · rw [loaded, GetResponse.value.inj read]
    exact same.symm
  · rw [loaded, GetResponse.value.inj read]
    rfl

end Content

/-- The syncer and the etcd key as a register. `undelivered` are the writes made since
the watch was opened that it has not delivered yet, and `lastGet` is what the last Get
returned. -/
structure World where
  sync : State
  stored : Content
  undelivered : List Content
  lastGet : Content
  deriving DecidableEq

inductive Act
  | put (v : Content)
  | get (fn : Outcome)
  | opened
  | deliver (n : Nat) (first last : Flush)
  | timer (e : Flush)
  | terminated
  | delayElapsed
  | stop

/-- The part of a step that the syncer takes. A write is none of its business. -/
def input (s : World) : Act → Option Input
  | .put _ => none
  | .get fn => some (.get (.value s.stored.1) fn)
  | .opened => some .opened
  | .deliver n first last =>
      some (.response ((s.undelivered.take n).map fun v => .put v.1) first last)
  | .timer e => some (.timer e)
  | .terminated => some .terminated
  | .delayElapsed => some .delayElapsed
  | .stop => some .stop

/-- The part of a step that the register and the stream take. A watch is opened without
a start revision, so it delivers only later writes. -/
def World.after (s : World) (sync : State) : Act → World
  | .put v =>
      { s with
        stored := v
        undelivered :=
          if s.sync.control = .watching then s.undelivered ++ [v] else s.undelivered }
  | .get _ => { s with sync := sync, lastGet := s.stored }
  | .opened => { s with sync := sync, undelivered := [] }
  | .deliver n _ _ => { s with sync := sync, undelivered := s.undelivered.drop n }
  | .timer _ | .terminated | .delayElapsed | .stop => { s with sync := sync }

/-- Every interleaving of writes with the steps of the syncer, from any stored value. -/
def register : Machine World Act where
  init s := ∃ v, s = ⟨initial, v, [], v⟩
  next s a :=
    match input s a with
    | none => some (s.after s.sync a)
    | some i => (step s.sync i).map fun sync => s.after sync a

/-- While a watch is open, nothing is left to deliver and nothing waits, the last
processed content is the stored one. -/
def UpToDate (s : World) : Prop :=
  s.sync.control = .watching → s.undelivered = [] → s.sync.watcher.pendingSet = false →
    s.sync.watcher.syncer.lastPolicy = s.stored.1

/-- Writes that fall between a Get and the opening of the next watch leave the value
that the Get returned. -/
def GapClosed (s : World) (a : Act) : Prop := a = .opened → s.stored = s.lastGet

private theorem register_next {s s' : World} {a : Act} (idle : Idle s.sync)
    (taken : register.next s a = some s') :
    (∃ v, a = .put v ∧ s' = s.after s.sync a) ∨
      ∃ i sync, input s a = some i ∧ Moves s.sync i sync ∧ s' = s.after sync a := by
  cases a with
  | put v => exact .inl ⟨v, rfl, (Option.some.inj taken).symm⟩
  | get | opened | deliver | timer | terminated | delayElapsed | stop =>
      obtain ⟨sync, stepped, rfl⟩ := Option.map_eq_some_iff.mp taken
      exact .inr ⟨_, sync, rfl, step_moves idle stepped, rfl⟩

/-- Between a Get and the opening of the next watch the last processed content is what
the Get returned. -/
structure Fetched (s : World) : Prop where
  idle : Idle s.sync
  fetched : s.sync.control = .opening ∨ s.sync.control = .delaying →
    s.sync.watcher.syncer.lastPolicy = s.lastGet.1

private theorem register_fetched {ok : World → Act → Prop} {s : World}
    (reached : register.Reachable ok s) : Fetched s := by
  refine Machine.Reachable.invariant Fetched ?_ ?_ reached
  · rintro s ⟨v, rfl⟩
    refine ⟨fun _ => rfl, ?_⟩
    rintro (opening | delaying)
    · exact absurd opening nofun
    · exact absurd delaying nofun
  · rintro s a s' - before - taken
    rcases register_next before.idle taken with ⟨v, rfl, rfl⟩ | ⟨i, sync, entered, moves, rfl⟩
    · exact ⟨before.idle, before.fetched⟩
    · cases a with
      | put v => exact absurd entered nofun
      | get fn =>
          obtain rfl := Option.some.inj entered
          refine ⟨moves.idle, fun _ => ?_⟩
          cases moves with
          | get => exact resync_lastPolicy s.sync.watcher s.stored fn
      | delayElapsed =>
          obtain rfl := Option.some.inj entered
          refine ⟨moves.idle, fun _ => ?_⟩
          cases moves with
          | delayElapsed delaying => exact before.fetched (.inr delaying)
      | opened | deliver | timer | terminated | stop =>
          obtain rfl := Option.some.inj entered
          refine ⟨moves.idle, fun fetching => ?_⟩
          cases moves
          exact absurd fetching (by simp [World.after])

/-- What an open watch still owes brings the syncer to the stored value. -/
def Current (s : World) : Prop :=
  s.sync.control = .watching → processed s.sync.watcher s.undelivered = s.stored.1

private theorem processed_deliver (w w' : Watcher) (queue : List Content) (n : Nat)
    (taken : w'.syncer.lastPolicy = processed w (queue.take n)) :
    processed w' (queue.drop n) = processed w queue := by
  have whole : queue.getLast? = (queue.drop n).getLast?.or (queue.take n).getLast? := by
    rw [← List.getLast?_append, List.take_append_drop]
  rw [processed, taken, processed, processed, whole]
  cases (queue.drop n).getLast? <;> rfl

private theorem register_current {s : World} (reached : register.Reachable GapClosed s) :
    Current s := by
  refine Machine.Reachable.invariant Current ?_ ?_ reached
  · rintro s ⟨v, rfl⟩ watching
    exact absurd watching nofun
  · intro s a s' before current closed taken watching
    have fetched := register_fetched before
    rcases register_next fetched.idle taken with ⟨v, rfl, rfl⟩ | ⟨i, sync, entered, moves, rfl⟩
    · change s.sync.control = .watching at watching
      change processed s.sync.watcher (if _ then _ else _) = v.1
      rw [if_pos watching, processed, List.getLast?_concat]
      rfl
    · cases a with
      | put v => exact absurd entered nofun
      | opened =>
          obtain rfl := Option.some.inj entered
          cases moves with
          | opened opening =>
              -- Without the gap the value read by the last Get is the one stored now.
              have same : s.stored = s.lastGet := closed rfl
              change s.sync.watcher.syncer.lastPolicy = s.stored.1
              rw [same]
              exact fetched.fetched (.inl opening)
      | deliver n first last =>
          obtain rfl := Option.some.inj entered
          cases moves with
          | response open_ =>
              exact (processed_deliver s.sync.watcher _ s.undelivered n
                (processResponse_lastPolicy _ _ first last)).trans (current open_)
      | timer e =>
          obtain rfl := Option.some.inj entered
          cases moves with
          | timer open_ pending =>
              have kept := flushPending_lastPolicy s.sync.watcher e
              change processed (s.sync.watcher.flushPending e) s.undelivered = s.stored.1
              rw [processed, kept]
              exact current open_
      | get fn =>
          obtain rfl := Option.some.inj entered
          cases moves with
          | get fetching =>
              rcases fetching with ⟨-, rfl⟩ | ⟨-, rfl⟩
              · exact absurd watching nofun
              · exact absurd watching nofun
      | terminated | delayElapsed | stop =>
          obtain rfl := Option.some.inj entered
          cases moves
          exact absurd watching nofun

def lateFlush (w : Watcher) : Flush := ⟨w.lastReload.getD 0 + 100000000, 0, .ok⟩

private theorem lateFlush_elapsed (w : Watcher) :
    elapsed w.lastReload (lateFlush w).now = true := by
  unfold elapsed lateFlush
  cases w.lastReload with
  | none => rfl
  | some reload =>
      have window : minReloadInterval ≤ ((reload + 100000000 : Nat) : Int) - reload := by
        unfold minReloadInterval
        omega
      exact decide_eq_true window

/-- A watch opened on another value than the last Get returned leads to a state that is
not up to date, at once or when the content that waits has been applied. -/
private theorem gap_loses {s s' : World} (fetched : Fetched s)
    (taken : register.next s .opened = some s')
    (gap : s.stored ≠ s.lastGet) :
    ∃ labels t, register.run s' labels = some t ∧ ¬ UpToDate t := by
  obtain ⟨sync, stepped, rfl⟩ := Option.map_eq_some_iff.mp taken
  have moves := step_moves fetched.idle stepped
  cases moves with
  | opened opening =>
      have stale : s.sync.watcher.syncer.lastPolicy ≠ s.stored.1 := by
        rw [fetched.fetched (.inl opening)]
        exact fun same => gap (Subtype.ext same.symm)
      by_cases pending : s.sync.watcher.pendingSet = true
      · let e := lateFlush s.sync.watcher
        let t : World := { s with
          sync := ⟨.watching, s.sync.watcher.flushPending e⟩
          undelivered := [] }
        refine ⟨[.timer e], t, ?_, fun fresh => ?_⟩
        · have armed : step ⟨.watching, s.sync.watcher⟩ (.timer e) = some t.sync :=
            if_pos ⟨rfl, pending⟩
          have next : register.next (s.after ⟨.watching, s.sync.watcher⟩ .opened) (.timer e) =
              some t := by
            change (step ⟨.watching, s.sync.watcher⟩ (.timer e)).map _ = some t
            rw [armed]
            rfl
          rw [Machine.run, next]
          rfl
        · have flushed : (s.sync.watcher.flushPending e).pendingSet = false := by
            have late : elapsed s.sync.watcher.lastReload e.now = true := lateFlush_elapsed _
            unfold Watcher.flushPending
            rw [pending, late]
            rfl
          exact stale ((flushPending_lastPolicy _ e).symm.trans (fresh rfl rfl flushed))
      · exact ⟨[], _, rfl, fun fresh => stale (fresh rfl rfl (Bool.eq_false_iff.mpr pending))⟩

/-- In every run in which no write between a Get and the opening of the next watch
changes the value, the syncer is up to date in every state. Wherever a watch is opened on
another value, the run goes on to a state that is not. -/
theorem register_upToDate (s : World) :
    (register.Reachable GapClosed s → UpToDate s) ∧
    ∀ s', register.Reachable Machine.any s → register.next s .opened = some s' →
      s.stored ≠ s.lastGet → ∃ labels t, register.run s' labels = some t ∧ ¬ UpToDate t := by
  refine ⟨fun reached watching delivered _ => ?_, fun s' reached taken gap => ?_⟩
  · have current := register_current reached watching
    rw [delivered] at current
    exact current
  · exact gap_loses (register_fetched reached) taken gap

/-- A write after the first Get and before the watch is opened is never seen. -/
theorem write_in_gap_lost :
    ∃ s, register.Reachable Machine.any s ∧ s.sync.control = .watching ∧ s.undelivered = [] ∧
      s.sync.watcher.pendingSet = false ∧ s.sync.watcher.syncer.lastPolicy = [65] ∧
      s.stored.1 = [66] := by
  have start : register.Reachable Machine.any
      ⟨initial, ⟨[65], by decide⟩, [], ⟨[65], by decide⟩⟩ := .init ⟨_, rfl⟩
  have ran := start.of_run [.get .ok, .put ⟨[66], by decide⟩, .opened] rfl
  exact ⟨_, ran, rfl, rfl, rfl, rfl, rfl⟩

end L3Firewall.Sync.Register
