/- Sync/Steps
   source: internal/syncer/syncer.go
   digest: What every step of the syncer can do, and the invariant its dedupe relies on. -/

import L3Firewall.Sync.Core

set_option autoImplicit false
set_option relaxedAutoImplicit false

namespace L3Firewall.Sync.Steps

open Foundation.Runs
open Sync.Core

/-- What the dedupe relies on: the processed content waits in the slot, or it is what
the callback was last called with. -/
structure Settled (w : Watcher) : Prop where
  waiting : w.pendingSet = true → w.pendingPolicy = w.syncer.lastPolicy
  applied : w.pendingSet = false →
    w.syncer.lastPolicy = [] ∧ w.syncer.calls = [] ∨
      ∃ c, w.syncer.calls.getLast? = some c ∧ c.policy = w.syncer.lastPolicy

variable {w : Watcher}

/-- What a flush does: nothing while the slot is empty or the last reload is too recent,
otherwise it empties the slot into the callback. -/
theorem flushPending_cases (w : Watcher) (e : Flush) :
    ((w.pendingSet = false ∨ elapsed w.lastReload e.now = false) ∧ w.flushPending e = w) ∨
    (w.pendingSet = true ∧ elapsed w.lastReload e.now = true) ∧ w.flushPending e =
      { w with
        pendingSet := false
        syncer := w.syncer.invoke e.fn w.pendingPolicy
        lastReload := some e.after } := by
  unfold Watcher.flushPending
  cases pending : w.pendingSet with
  | false => exact .inl ⟨.inl rfl, rfl⟩
  | true =>
      cases late : elapsed w.lastReload e.now with
      | false => exact .inl ⟨.inr rfl, rfl⟩
      | true => exact .inr ⟨⟨rfl, rfl⟩, rfl⟩

theorem processEvent_put_cases (w : Watcher) (bytes : Policy) :
    ((maxPolicySize < bytes.length ∨ bytes = w.syncer.lastPolicy) ∧
      w.processEvent (.put bytes) = w) ∨
    (bytes.length ≤ maxPolicySize ∧ bytes ≠ w.syncer.lastPolicy) ∧ w.processEvent (.put bytes) =
      { w with
        syncer := { w.syncer with lastPolicy := bytes }
        pendingPolicy := bytes
        pendingSet := true } := by
  unfold Watcher.processEvent Syncer.applyPolicy
  dsimp only
  by_cases oversized : maxPolicySize < bytes.length
  · rw [if_pos oversized]
    exact .inl ⟨.inl oversized, rfl⟩
  · rw [if_neg oversized]
    by_cases same : bytes = w.syncer.lastPolicy
    · rw [if_pos same]
      exact .inl ⟨.inr same, rfl⟩
    · rw [if_neg same]
      exact .inr ⟨⟨Nat.not_lt.mp oversized, same⟩, rfl⟩

private theorem flushPending_settled (settled : Settled w) (e : Flush) :
    Settled (w.flushPending e) := by
  rcases flushPending_cases w e with ⟨-, same⟩ | ⟨⟨pending, -⟩, passed⟩
  · rw [same]
    exact settled
  · have waiting := settled.waiting pending
    rw [passed]
    refine ⟨fun impossible => absurd impossible (by simp), fun _ => .inr ?_⟩
    exact ⟨⟨w.pendingPolicy, safeOnUpdate e.fn⟩, List.getLast?_concat, waiting⟩

private theorem processEvent_settled (settled : Settled w) (ev : Event) :
    Settled (w.processEvent ev) := by
  cases ev with
  | absent => exact settled
  | delete => exact settled
  | put bytes =>
      rcases processEvent_put_cases w bytes with ⟨-, same⟩ | ⟨-, queued⟩
      · rw [same]
        exact settled
      · rw [queued]
        exact ⟨fun _ => rfl, fun impossible => absurd impossible (by simp)⟩

private theorem processResponse_settled (settled : Settled w) (events : List Event)
    (first last : Flush) : Settled (w.processResponse events first last) := by
  have folded (l : List Event) : ∀ w : Watcher, Settled w →
      Settled (l.foldl Watcher.processEvent w) := by
    induction l with
    | nil => exact fun _ settled => settled
    | cons ev rest ih => exact fun w settled => ih _ (processEvent_settled settled ev)
  exact flushPending_settled (folded _ _ (flushPending_settled settled first)) last

theorem loadCurrent_cases (s : Syncer) (resp : GetResponse) (fn : Outcome) :
    ((∀ bytes, resp = .value bytes → maxPolicySize < bytes.length) ∧
      s.loadCurrent resp fn = ([], s)) ∨
    (∃ bytes, resp = .value bytes ∧ bytes = s.lastPolicy ∧
      s.loadCurrent resp fn = (bytes, s)) ∨
    ∃ bytes, resp = .value bytes ∧ bytes ≠ s.lastPolicy ∧
      s.loadCurrent resp fn =
        (bytes, ({ s with lastPolicy := bytes } : Syncer).invoke fn bytes) := by
  cases resp with
  | failed => exact .inl ⟨nofun, rfl⟩
  | missing => exact .inl ⟨nofun, rfl⟩
  | value bytes =>
      unfold Syncer.loadCurrent Syncer.applyPolicy
      dsimp only
      by_cases oversized : maxPolicySize < bytes.length
      · rw [if_pos oversized]
        exact .inl ⟨fun other same => GetResponse.value.inj same ▸ oversized, rfl⟩
      · rw [if_neg oversized]
        by_cases same : bytes = s.lastPolicy
        · rw [if_pos same]
          exact .inr (.inl ⟨bytes, rfl, same, rfl⟩)
        · rw [if_neg same]
          exact .inr (.inr ⟨bytes, rfl, same, rfl⟩)

theorem resync_syncer (w : Watcher) (resp : GetResponse) (fn : Outcome) :
    (w.resync resp fn).syncer = (w.syncer.loadCurrent resp fn).2 := by
  unfold Watcher.resync
  dsimp only
  split <;> rfl

theorem resync_cases (settled : Settled w) (resp : GetResponse) (fn : Outcome)
    (usable : resp ≠ .value []) :
    w.resync resp fn = w ∨
    ∃ bytes, resp = .value bytes ∧ w.resync resp fn =
      { w with
        syncer := ({ w.syncer with lastPolicy := bytes } : Syncer).invoke fn bytes
        pendingSet := false } := by
  rcases loadCurrent_cases w.syncer resp fn with ⟨-, nothing⟩ | ⟨bytes, read, same, loaded⟩ |
    ⟨bytes, read, fresh, loaded⟩
  · left
    unfold Watcher.resync
    rw [nothing]
    exact if_neg fun drop => drop.1 rfl
  · left
    unfold Watcher.resync
    rw [loaded]
    exact if_neg fun drop => drop.2.2 ((settled.waiting drop.2.1).trans same.symm)
  · right
    refine ⟨bytes, read, ?_⟩
    have nonempty : bytes ≠ [] := fun empty => usable (by rw [read, empty])
    unfold Watcher.resync
    rw [loaded]
    dsimp only
    by_cases pending : w.pendingSet = true
    · have waiting := settled.waiting pending
      rw [if_pos ⟨nonempty, pending, fun superseded => fresh (superseded.symm.trans waiting)⟩]
    · rw [if_neg fun drop => pending drop.2.1, Bool.eq_false_iff.mpr pending]

private theorem resync_settled (settled : Settled w) (resp : GetResponse) (fn : Outcome)
    (usable : resp ≠ .value []) : Settled (w.resync resp fn) := by
  rcases resync_cases settled resp fn usable with same | ⟨bytes, -, applied⟩
  · rw [same]
    exact settled
  · rw [applied]
    refine ⟨fun impossible => absurd impossible (by simp), fun _ => .inr ?_⟩
    exact ⟨⟨bytes, safeOnUpdate fn⟩, List.getLast?_concat, rfl⟩

private theorem start_eq_resync (idle : w.pendingSet = false) (resp : GetResponse) (fn : Outcome) :
    { w with syncer := (w.syncer.loadCurrent resp fn).2 } = w.resync resp fn := by
  have keep : ¬ ((w.syncer.loadCurrent resp fn).1 ≠ [] ∧ w.pendingSet = true ∧
      w.pendingPolicy ≠ (w.syncer.loadCurrent resp fn).1) := by
    rw [idle]
    exact fun drop => absurd drop.2.1 (by simp)
  exact (if_neg keep).symm

def Usable (_ : State) : Input → Prop
  | .get resp _ => resp ≠ .value []
  | _ => True

/-- Everything a step of the syncer can do. The first Get counts as a resync. -/
inductive Moves (s : State) : Input → State → Prop
  | get {resp : GetResponse} {fn : Outcome} {control : Control}
      (fetching : s.control = .starting ∧ control = .opening ∨
        s.control = .reconnecting ∧ control = .delaying) :
      Moves s (.get resp fn) ⟨control, s.watcher.resync resp fn⟩
  | opened (opening : s.control = .opening) : Moves s .opened ⟨.watching, s.watcher⟩
  | response {events : List Event} {first last : Flush} (watching : s.control = .watching) :
      Moves s (.response events first last)
        ⟨.watching, s.watcher.processResponse events first last⟩
  | timer {e : Flush} (watching : s.control = .watching) (pending : s.watcher.pendingSet = true) :
      Moves s (.timer e) ⟨.watching, s.watcher.flushPending e⟩
  | terminated (watching : s.control = .watching) :
      Moves s .terminated ⟨.reconnecting, s.watcher⟩
  | delayElapsed (delaying : s.control = .delaying) :
      Moves s .delayElapsed ⟨.opening, s.watcher⟩
  | stop : Moves s .stop ⟨.stopped, s.watcher⟩

/-- Before its first Get the syncer has nothing queued. -/
def Idle (s : State) : Prop := s.control = .starting → s.watcher.pendingSet = false

theorem step_moves {s s' : State} {i : Input} (idle : Idle s) (taken : step s i = some s') :
    Moves s i s' := by
  obtain ⟨control, w⟩ := s
  cases i with
  | get resp fn =>
      cases control with
      | starting =>
          obtain rfl := Option.some.inj taken
          rw [start_eq_resync (idle rfl)]
          exact .get (.inl ⟨rfl, rfl⟩)
      | reconnecting =>
          obtain rfl := Option.some.inj taken
          exact .get (.inr ⟨rfl, rfl⟩)
      | opening => exact absurd taken nofun
      | watching => exact absurd taken nofun
      | delaying => exact absurd taken nofun
      | stopped => exact absurd taken nofun
  | opened =>
      obtain ⟨opening, taken⟩ := Option.ite_none_right_eq_some.mp taken
      obtain rfl := Option.some.inj taken
      exact .opened opening
  | response events first last =>
      obtain ⟨watching, taken⟩ := Option.ite_none_right_eq_some.mp taken
      obtain rfl := Option.some.inj taken
      obtain rfl : control = .watching := watching
      exact .response rfl
  | timer e =>
      obtain ⟨⟨watching, pending⟩, taken⟩ := Option.ite_none_right_eq_some.mp taken
      obtain rfl := Option.some.inj taken
      obtain rfl : control = .watching := watching
      exact .timer rfl pending
  | terminated =>
      obtain ⟨watching, taken⟩ := Option.ite_none_right_eq_some.mp taken
      obtain rfl := Option.some.inj taken
      exact .terminated watching
  | delayElapsed =>
      obtain ⟨delaying, taken⟩ := Option.ite_none_right_eq_some.mp taken
      obtain rfl := Option.some.inj taken
      exact .delayElapsed delaying
  | stop =>
      cases control with
      | watching | reconnecting | delaying =>
          obtain rfl := Option.some.inj taken
          exact .stop
      | starting | opening | stopped => exact absurd taken nofun

theorem Moves.idle {s s' : State} {i : Input} (moves : Moves s i s') : Idle s' := by
  intro starting
  cases moves with
  | get fetching =>
      rcases fetching with ⟨-, control⟩ | ⟨-, control⟩
      · exact absurd (control.symm.trans starting) nofun
      · exact absurd (control.symm.trans starting) nofun
  | opened | response | timer | terminated | delayElapsed | stop => exact absurd starting nofun

private theorem Moves.settled {s s' : State} {i : Input} (moves : Moves s i s')
    (settled : Settled s.watcher) (usable : Usable s i) : Settled s'.watcher := by
  cases moves with
  | get => exact resync_settled settled _ _ usable
  | response => exact processResponse_settled settled _ _ _
  | timer => exact flushPending_settled settled _
  | opened | terminated | delayElapsed | stop => exact settled

theorem syncer_settled {s : State} (reached : syncer.Reachable Usable s) :
    Idle s ∧ Settled s.watcher := by
  refine Machine.Reachable.invariant (fun s => Idle s ∧ Settled s.watcher) ?_ ?_ reached
  · rintro s rfl
    exact ⟨fun _ => rfl, ⟨fun impossible => absurd impossible (by decide),
      fun _ => .inl ⟨rfl, rfl⟩⟩⟩
  · rintro s i s' - ⟨idle, settled⟩ usable taken
    have moves := step_moves idle taken
    exact ⟨moves.idle, moves.settled settled usable⟩

end L3Firewall.Sync.Steps
