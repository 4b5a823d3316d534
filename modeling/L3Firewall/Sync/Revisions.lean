/- Sync/Revisions
   source: internal/syncer/syncer.go
   digest: Policies reach the callback in the order of their etcd revisions. -/

import L3Firewall.Sync.Steps
import Mathlib.Data.List.Basic
import Mathlib.Data.List.Pairwise
import Mathlib.Order.Lattice

set_option autoImplicit false
set_option relaxedAutoImplicit false

namespace L3Firewall.Sync.Revisions

open Foundation.Runs
open Sync.Core
open Steps

section Traced

variable {value : Nat → Option Policy} {bound : Nat} {w : Watcher}

/-- The calls carry the values of the given revisions, in order and up to the bound. -/
structure Dated (value : Nat → Option Policy) (bound : Nat) (calls : List Call)
    (revs : List Nat) : Prop where
  ordered : revs.Pairwise (· ≤ ·)
  contents : calls.map (fun c => some c.policy) = revs.map value
  below : ∀ r ∈ revs, r ≤ bound

/-- Revisions can be chosen for the calls made and for the content that waits. -/
def Traced (value : Nat → Option Policy) (bound : Nat) (w : Watcher) : Prop :=
  ∃ revs, Dated value bound w.syncer.calls revs ∧
    (w.pendingSet = true →
      ∃ r, value r = some w.pendingPolicy ∧ (∀ q ∈ revs, q ≤ r) ∧ r ≤ bound)

private theorem Dated.snoc {calls : List Call} {revs : List Nat}
    (dated : Dated value bound calls revs)
    {c : Call} {r : Nat} (content : value r = some c.policy) (newest : ∀ q ∈ revs, q ≤ r) :
    Dated value (max bound r) (calls ++ [c]) (revs ++ [r]) := by
  refine ⟨?_, ?_, ?_⟩
  · refine List.pairwise_append.mpr ⟨dated.ordered, List.pairwise_singleton _ _, ?_⟩
    intro q earlier p last
    rw [List.mem_singleton.mp last]
    exact newest q earlier
  · rw [List.map_append, List.map_append, dated.contents, List.map_singleton, List.map_singleton,
      content]
  · intro q member
    rcases List.mem_append.mp member with earlier | last
    · have old := dated.below q earlier
      omega
    · rw [List.mem_singleton.mp last]
      omega

private theorem Traced.mono (traced : Traced value bound w) {bound' : Nat} (le : bound ≤ bound') :
    Traced value bound' w := by
  obtain ⟨revs, dated, waiting⟩ := traced
  refine ⟨revs, ⟨dated.ordered, dated.contents, fun r member => ?_⟩, fun pending => ?_⟩
  · exact (dated.below r member).trans le
  · obtain ⟨r, content, newest, below⟩ := waiting pending
    exact ⟨r, content, newest, below.trans le⟩

private theorem flushPending_traced (traced : Traced value bound w) (e : Flush) :
    Traced value bound (w.flushPending e) := by
  rcases flushPending_cases w e with ⟨-, same⟩ | ⟨⟨pending, -⟩, passed⟩
  · rw [same]
    exact traced
  · obtain ⟨revs, dated, waiting⟩ := traced
    obtain ⟨r, content, newest, below⟩ := waiting pending
    have extended := dated.snoc (c := ⟨w.pendingPolicy, safeOnUpdate e.fn⟩) content newest
    rw [Nat.max_eq_left below] at extended
    rw [passed]
    exact ⟨revs ++ [r], extended, fun impossible => absurd impossible (by simp)⟩

private theorem processEvent_traced (traced : Traced value bound w) {r : Nat} {bytes : Policy}
    (content : value r = some bytes) (newer : bound ≤ r) :
    Traced value r (w.processEvent (.put bytes)) := by
  rcases processEvent_put_cases w bytes with ⟨-, same⟩ | ⟨-, queued⟩
  · rw [same]
    exact traced.mono newer
  · obtain ⟨revs, dated, -⟩ := traced.mono newer
    rw [queued]
    exact ⟨revs, dated, fun _ => ⟨r, content, dated.below, le_rfl⟩⟩

private theorem resync_traced (settled : Settled w) (traced : Traced value bound w) {r : Nat}
    {resp : GetResponse} (fn : Outcome) (usable : resp ≠ .value [])
    (content : ∀ bytes, resp = .value bytes → value r = some bytes) (newer : bound ≤ r) :
    Traced value r (w.resync resp fn) := by
  rcases resync_cases settled resp fn usable with same | ⟨bytes, read, applied⟩
  · rw [same]
    exact traced.mono newer
  · obtain ⟨revs, dated, -⟩ := traced.mono newer
    have extended := dated.snoc (c := ⟨bytes, safeOnUpdate fn⟩) (content bytes read) dated.below
    rw [Nat.max_self] at extended
    rw [applied]
    exact ⟨revs ++ [r], extended, fun impossible => absurd impossible (by simp)⟩

end Traced

section Etcd

/-- The value of the key at every revision, where it has one. All values are non-empty
and within the size limit. -/
structure History where
  value : Nat → Option Policy
  valid : ∀ r p, value r = some p → p ≠ [] ∧ p.length ≤ maxPolicySize

inductive Delivery
  | absent
  | delete (rev : Nat)
  | put (rev : Nat)
  deriving DecidableEq

def Delivery.rev : Delivery → Option Nat
  | .absent => none
  | .delete r => some r
  | .put r => some r

def revisions (ds : List Delivery) : List Nat := ds.filterMap Delivery.rev

/-- The syncer between an etcd with revisions and a callback. `delivered` is the newest
revision a watch has delivered, `read` the newest one anything has been read at, and
`opened` what `read` was when the watch was opened. -/
structure World where
  sync : State
  delivered : Nat
  read : Nat
  opened : Nat
  deriving DecidableEq

inductive Act
  | getFailed (fn : Outcome)
  | getAt (rev : Nat) (fn : Outcome)
  | opened
  | response (ds : List Delivery) (first last : Flush)
  | timer (e : Flush)
  | terminated
  | delayElapsed
  | stop

namespace History

variable (h : History)

def response (r : Nat) : GetResponse :=
  match h.value r with
  | some p => .value p
  | none => .missing

def event : Delivery → Event
  | .absent => .absent
  | .delete _ => .delete
  | .put r =>
      match h.value r with
      | some p => .put p
      | none => .delete

def input : Act → Input
  | .getFailed fn => .get .failed fn
  | .getAt r fn => .get (h.response r) fn
  | .opened => .opened
  | .response ds first last => .response (ds.map h.event) first last
  | .timer e => .timer e
  | .terminated => .terminated
  | .delayElapsed => .delayElapsed
  | .stop => .stop

/-- What etcd promises. Events come in revision order, those of a new watch are newer
than anything read before it was opened, and a write carries the value of its revision.
A Get reads no older than what was delivered. -/
def Permits (s : World) : Act → Prop
  | .getAt r _ => s.delivered ≤ r
  | .response ds _ _ =>
      (s.delivered :: revisions ds).Pairwise (· ≤ ·) ∧ (∀ r ∈ revisions ds, s.opened < r) ∧
        ∀ r, .put r ∈ ds → h.value r ≠ none
  | _ => True

end History

def World.after (s : World) (sync : State) : Act → World
  | .getAt r _ => { s with sync := sync, read := max s.read r }
  | .opened => { s with sync := sync, opened := s.read }
  | .response ds _ _ =>
      { s with
        sync := sync
        delivered := (revisions ds).foldr max s.delivered
        read := (revisions ds).foldr max s.read }
  | _ => { s with sync := sync }

def etcd (h : History) : Machine World Act where
  init s := s = ⟨initial, 0, 0, 0⟩
  next s a := (step s.sync (h.input a)).map fun sync => s.after sync a

def History.PermitsForward (h : History) (s : World) (a : Act) : Prop :=
  h.Permits s a ∧ ∀ r fn, a = .getAt r fn → s.read ≤ r

private theorem History.response_usable (h : History) (r : Nat) : h.response r ≠ .value [] := by
  unfold History.response
  split
  · next p stored =>
    intro empty
    exact (h.valid r p stored).1 (GetResponse.value.inj empty)
  · exact nofun

private theorem History.response_value (h : History) (r : Nat) (bytes : Policy)
    (read : h.response r = .value bytes) : h.value r = some bytes := by
  unfold History.response at read
  split at read
  · next p stored => rw [stored, GetResponse.value.inj read]
  · exact absurd read nofun

private theorem etcd_next {h : History} {s s' : World} {a : Act}
    (taken : (etcd h).next s a = some s') :
    ∃ sync, step s.sync (h.input a) = some sync ∧ s' = s.after sync a := by
  obtain ⟨sync, stepped, rfl⟩ := Option.map_eq_some_iff.mp taken
  exact ⟨sync, stepped, rfl⟩

private theorem after_sync (s : World) (sync : State) (a : Act) : (s.after sync a).sync = sync := by
  cases a <;> rfl

private theorem etcd_syncer {h : History} {ok : World → Act → Prop} {s : World}
    (reached : (etcd h).Reachable ok s) : syncer.Reachable Usable s.sync := by
  refine Machine.Reachable.project World.sync ?_ ?_ reached
  · rintro s rfl
    rfl
  · intro s a s' _ taken
    obtain ⟨sync, stepped, rfl⟩ := etcd_next taken
    refine .inr ⟨h.input a, ?_, by rw [after_sync]; exact stepped⟩
    cases a with
    | getFailed fn => exact (nofun : GetResponse.failed ≠ .value [])
    | getAt r fn => exact h.response_usable r
    | opened | response | timer | terminated | delayElapsed | stop => trivial

private theorem le_foldr_max (l : List Nat) (b : Nat) : b ≤ l.foldr max b := by
  induction l with
  | nil => exact le_rfl
  | cons a l ih => exact ih.trans (Nat.le_max_right _ _)

private theorem mem_le_foldr_max (l : List Nat) (b : Nat) : ∀ a ∈ l, a ≤ l.foldr max b := by
  induction l with
  | nil => exact nofun
  | cons c l ih =>
      intro a member
      rcases List.mem_cons.mp member with rfl | later
      · exact Nat.le_max_left _ _
      · exact (ih a later).trans (Nat.le_max_right _ _)

private theorem foldr_max_le {l : List Nat} {b c : Nat} (base : b ≤ c) (all : ∀ a ∈ l, a ≤ c) :
    l.foldr max b ≤ c := by
  induction l with
  | nil => exact base
  | cons a l ih =>
      have head := all a List.mem_cons_self
      have tail := ih fun a member => all a (List.mem_cons_of_mem _ member)
      exact Nat.max_le.mpr ⟨head, tail⟩

private theorem collapse_map (h : History) (ds : List Delivery) :
    ∃ kept : List Delivery, kept.Sublist ds ∧ collapse (ds.map h.event) = kept.map h.event := by
  unfold collapse
  split
  · exact ⟨_, List.drop_sublist _ ds, List.map_drop.symm⟩
  · exact ⟨ds, List.Sublist.refl ds, rfl⟩

private theorem processEvents_traced (h : History) {top : Nat} (ds : List Delivery) :
    ∀ (bound : Nat) (w : Watcher), Traced h.value bound w → bound ≤ top →
      (bound :: revisions ds).Pairwise (· ≤ ·) → (∀ r ∈ revisions ds, r ≤ top) →
      (∀ r, .put r ∈ ds → h.value r ≠ none) →
      Traced h.value top ((ds.map h.event).foldl Watcher.processEvent w) := by
  induction ds with
  | nil => exact fun bound w traced le _ _ _ => traced.mono le
  | cons d ds ih =>
      intro bound w traced le ordered below stored
      have later : ∀ r, .put r ∈ ds → h.value r ≠ none :=
        fun r member => stored r (List.mem_cons_of_mem _ member)
      cases d with
      | absent => exact ih bound w traced le ordered below later
      | delete r =>
          have shorter : (bound :: revisions ds).Pairwise (· ≤ ·) :=
            ordered.sublist ((List.sublist_cons_self r (revisions ds)).cons_cons bound)
          exact ih bound w traced le shorter
            (fun q member => below q (List.mem_cons_of_mem r member)) later
      | put r =>
          obtain ⟨p, content⟩ := Option.ne_none_iff_exists'.mp (stored r List.mem_cons_self)
          have newer : bound ≤ r := (List.pairwise_cons.mp ordered).1 r List.mem_cons_self
          have event : h.event (.put r) = .put p := by
            simp only [History.event, content]
          rw [List.map_cons, List.foldl_cons, event]
          exact ih r _ (processEvent_traced traced content newer)
            (below r List.mem_cons_self) (List.pairwise_cons.mp ordered).2
            (fun q member => below q (List.mem_cons_of_mem r member)) later

/-- What carries the order of calls over a run: while a watch is open nothing newer has
been read than its events and what preceded it. -/
structure Forward (h : History) (s : World) : Prop where
  traced : Traced h.value s.read s.sync.watcher
  open_read : s.sync.control = .watching → s.read ≤ max s.opened s.delivered

private theorem response_forward {h : History} {s : World} (forward : Forward h s)
    (watching : s.sync.control = .watching) {ds : List Delivery} {first last : Flush}
    (permits : h.Permits s (.response ds first last)) :
    Forward h (s.after ⟨.watching, s.sync.watcher.processResponse (ds.map h.event) first last⟩
      (.response ds first last)) := by
  obtain ⟨ordered, newer, stored⟩ := permits
  have open_read := forward.open_read watching
  have above : ∀ r ∈ revisions ds, s.read ≤ r := by
    intro r member
    have opened := newer r member
    have delivered := (List.pairwise_cons.mp ordered).1 r member
    omega
  refine ⟨?_, fun _ => ?_⟩
  · obtain ⟨kept, sublist, collapsed⟩ := collapse_map h ds
    have kept_revs : (revisions kept).Sublist (revisions ds) := sublist.filterMap Delivery.rev
    have flushed := flushPending_traced forward.traced first
    have folded := processEvents_traced h kept s.read _ flushed (le_foldr_max (revisions ds) s.read)
      (List.pairwise_cons.mpr ⟨fun r member => above r (kept_revs.subset member),
        (List.pairwise_cons.mp ordered).2.sublist kept_revs⟩)
      (fun r member => mem_le_foldr_max _ _ r (kept_revs.subset member))
      (fun r member => stored r (sublist.subset member))
    have whole := flushPending_traced folded last
    rw [← collapsed] at whole
    exact whole
  · refine foldr_max_le ?_ fun r member => ?_
    · have grown := le_foldr_max (revisions ds) s.delivered
      change s.read ≤ max s.opened ((revisions ds).foldr max s.delivered)
      omega
    · have grown := mem_le_foldr_max (revisions ds) s.delivered r member
      change r ≤ max s.opened ((revisions ds).foldr max s.delivered)
      omega

private theorem etcd_forward {h : History} {s : World}
    (reached : (etcd h).Reachable h.PermitsForward s) :
    Forward h s := by
  refine Machine.Reachable.invariant (Forward h) ?_ ?_ reached
  · rintro s rfl
    refine ⟨⟨[], ⟨List.Pairwise.nil, rfl, nofun⟩, fun impossible => ?_⟩, fun impossible => ?_⟩
    · exact absurd impossible (by decide)
    · exact absurd impossible (by decide)
  · rintro s a s' before forward ⟨permits, onward⟩ taken
    obtain ⟨idle, settled⟩ := syncer_settled (etcd_syncer before)
    obtain ⟨sync, stepped, rfl⟩ := etcd_next taken
    have moves := step_moves idle stepped
    cases a with
    | getFailed fn =>
        cases moves with
        | get fetching =>
            have traced := resync_traced settled forward.traced fn
              (nofun : GetResponse.failed ≠ .value []) nofun le_rfl
            refine ⟨traced, fun watching => ?_⟩
            rcases fetching with ⟨-, control⟩ | ⟨-, control⟩
            · exact absurd (control.symm.trans watching) nofun
            · exact absurd (control.symm.trans watching) nofun
    | getAt r fn =>
        cases moves with
        | get fetching =>
            have newer := onward r fn rfl
            have traced := resync_traced settled forward.traced fn (h.response_usable r)
              (h.response_value r) newer
            refine ⟨traced.mono (Nat.le_max_right _ _), fun watching => ?_⟩
            rcases fetching with ⟨-, control⟩ | ⟨-, control⟩
            · exact absurd (control.symm.trans watching) nofun
            · exact absurd (control.symm.trans watching) nofun
    | opened =>
        cases moves with
        | opened _ => exact ⟨forward.traced, fun _ => Nat.le_max_left _ _⟩
    | response ds first last =>
        cases moves with
        | response watching => exact response_forward forward watching permits
    | timer e =>
        cases moves with
        | timer watching _ =>
            exact ⟨flushPending_traced forward.traced e, fun _ => forward.open_read watching⟩
    | terminated =>
        cases moves with
        | terminated _ => exact ⟨forward.traced, nofun⟩
    | delayElapsed =>
        cases moves with
        | delayElapsed _ => exact ⟨forward.traced, nofun⟩
    | stop =>
        cases moves with
        | stop => exact ⟨forward.traced, nofun⟩

/-- In every state of every run the dedupe hides nothing: what waits is the last
processed content, and otherwise that content is the last the callback got. The contents
the callback got are values of revisions that can be chosen non-decreasing. -/
theorem syncer_never_regresses (h : History) (s : World)
    (reached : (etcd h).Reachable h.PermitsForward s) :
    (s.sync.watcher.pendingSet = true →
      s.sync.watcher.pendingPolicy = s.sync.watcher.syncer.lastPolicy) ∧
    (s.sync.watcher.pendingSet = false →
      s.sync.watcher.syncer.lastPolicy = [] ∧ s.sync.watcher.syncer.calls = [] ∨
        ∃ c, s.sync.watcher.syncer.calls.getLast? = some c ∧
          c.policy = s.sync.watcher.syncer.lastPolicy) ∧
    ∃ revs : List Nat, revs.Pairwise (· ≤ ·) ∧
      s.sync.watcher.syncer.calls.map (fun c => some c.policy) = revs.map h.value := by
  obtain ⟨-, settled⟩ := syncer_settled (etcd_syncer reached)
  obtain ⟨revs, dated, -⟩ := (etcd_forward reached).traced
  exact ⟨settled.waiting, settled.applied, revs, dated.ordered, dated.contents⟩

def twoWrites : History where
  value r := if r = 1 then some [65] else if r = 2 then some [66] else none
  valid := by
    intro r p stored
    split at stored
    · obtain rfl := Option.some.inj stored
      decide
    · split at stored
      · obtain rfl := Option.some.inj stored
        decide
      · exact absurd stored nofun

/-- A run with an event whose callback panics, a broken watch and a resync that finds nothing
new. -/
theorem twoWrites_never_regress :
    ∃ s, (etcd twoWrites).Reachable twoWrites.PermitsForward s ∧
      s.sync.watcher.syncer.calls = [⟨[65], none⟩, ⟨[66], some "onUpdate panic: boom"⟩] ∧
      ∃ revs : List Nat, revs.Pairwise (· ≤ ·) ∧
        s.sync.watcher.syncer.calls.map (fun c => some c.policy) = revs.map twoWrites.value := by
  have first : (etcd twoWrites).Reachable twoWrites.PermitsForward ⟨initial, 0, 0, 0⟩ := .init rfl
  have loaded := first.step (a := Act.getAt 1 Outcome.ok)
    ⟨Nat.zero_le 1, fun r fn same => by cases same; decide⟩ rfl
  have opened := loaded.step (a := Act.opened) ⟨trivial, nofun⟩ rfl
  have delivered := opened.step
    (a := Act.response [.put 2, .absent] ⟨0, 0, .ok⟩ ⟨5, 7, .panic "boom"⟩)
    ⟨⟨by decide, by decide, fun r member => by simp at member; subst member; decide⟩, nofun⟩ rfl
  have broken := delivered.step (a := Act.terminated) ⟨trivial, nofun⟩ rfl
  have resynced := broken.step (a := Act.getAt 2 Outcome.ok)
    ⟨Nat.le_refl 2, fun r fn same => by cases same; decide⟩ rfl
  exact ⟨_, resynced, rfl, (syncer_never_regresses twoWrites _ resynced).2.2⟩

/-- The resync of a broken watch reads behind the first Get, with no event delivered in
between. Its content goes to the callback after the newer one. -/
theorem stale_get_regresses :
    ∃ s, (etcd twoWrites).Reachable twoWrites.Permits s ∧
      s.sync.watcher.syncer.calls = [⟨[66], none⟩, ⟨[65], none⟩] ∧
      ¬ ∃ revs : List Nat, revs.Pairwise (· ≤ ·) ∧
        s.sync.watcher.syncer.calls.map (fun c => some c.policy) = revs.map twoWrites.value := by
  obtain ⟨s, reached, calls⟩ : ∃ s, (etcd twoWrites).Reachable twoWrites.Permits s ∧
      s.sync.watcher.syncer.calls = [⟨[66], none⟩, ⟨[65], none⟩] := by
    have first : (etcd twoWrites).Reachable twoWrites.Permits ⟨initial, 0, 0, 0⟩ := .init rfl
    have loaded := first.step (a := Act.getAt 2 Outcome.ok) (Nat.zero_le 2) rfl
    have opened := loaded.step (a := Act.opened) trivial rfl
    have broken := opened.step (a := Act.terminated) trivial rfl
    exact ⟨_, broken.step (a := Act.getAt 1 Outcome.ok) (Nat.zero_le 1) rfl, rfl⟩
  refine ⟨s, reached, calls, ?_⟩
  rw [calls]
  rintro ⟨revs, ordered, contents⟩
  have size : revs.length = 2 := by simpa using (congrArg List.length contents).symm
  obtain ⟨r, q, rfl⟩ := List.length_eq_two.mp size
  have le : r ≤ q := (List.pairwise_cons.mp ordered).1 q List.mem_cons_self
  have newer : some [66] = twoWrites.value r := (List.cons.inj contents).1
  have older : some [65] = twoWrites.value q := (List.cons.inj (List.cons.inj contents).2).1
  have two : r = 2 := by
    unfold twoWrites at newer
    grind
  have one : q = 1 := by
    unfold twoWrites at older
    grind
  omega

end Etcd

end L3Firewall.Sync.Revisions
