/- Sync/Collapse
   source: internal/syncer/syncer.go
   digest: When cutting an oversized watch response to its last event changes nothing. -/

import L3Firewall.Sync.Steps
import Mathlib.Data.List.Induction
import Mathlib.Data.List.TakeDrop

set_option autoImplicit false
set_option relaxedAutoImplicit false

namespace L3Firewall.Sync.Collapse

open Sync.Core
open Sync.Steps (flushPending_cases processEvent_put_cases)

/-- The same response without the cut: every event in order, between the two flushes. -/
def processAll (w : Watcher) (events : List Event) (first last : Flush) : Watcher :=
  (events.foldl Watcher.processEvent (w.flushPending first)).flushPending last

/-- The content of an event that reaches the dedupe. -/
def usable : Event → Option Policy
  | .put bytes => if maxPolicySize < bytes.length then none else some bytes
  | .absent => none
  | .delete => none

def passed (w : Watcher) : Option Policy := w.syncer.calls.getLast?.map (·.policy)

/-- The content that governs: of what was passed, the last that the callback accepts. -/
def governing (accepts : Policy → Bool) (w : Watcher) : Option Policy :=
  ((w.syncer.calls.map (·.policy)).filter accepts).getLast?

/-- The content that is passed last once nothing is pending any more. -/
def due (w : Watcher) : Option Policy := if w.pendingSet then some w.pendingPolicy else passed w

/-- All events repeat what was processed last, or the last event brings something new, or the
last usable content is what would be passed last anyway. -/
def Harmless (w : Watcher) (events : List Event) : Prop :=
  (∀ v ∈ events.filterMap usable, v = w.syncer.lastPolicy) ∨
  (∃ v, (events.getLast?).bind usable = some v ∧ v ≠ w.syncer.lastPolicy) ∨
  ∃ v, (events.filterMap usable).getLast? = some v ∧ due w = some v

/-! Flushes. -/

/-- The state after a flush that passes the pending content. -/
def flushed (w : Watcher) (e : Flush) : Watcher :=
  { w with
    pendingSet := false
    syncer := w.syncer.invoke e.fn w.pendingPolicy
    lastReload := some e.after }

variable {w : Watcher}

private theorem flush_cases (w : Watcher) (e : Flush) :
    w.flushPending e = w ∨ w.pendingSet = true ∧ w.flushPending e = flushed w e := by
  rcases flushPending_cases w e with ⟨-, same⟩ | ⟨⟨pending, -⟩, passing⟩
  · exact Or.inl same
  · exact Or.inr ⟨pending, passing⟩

private theorem passed_flushed (e : Flush) : passed (flushed w e) = some w.pendingPolicy := by
  show ((w.syncer.calls ++ [_]).getLast?).map Call.policy = _
  rw [List.getLast?_concat]
  rfl

private theorem due_flushPending (e : Flush) : due (w.flushPending e) = due w := by
  rcases flush_cases w e with same | ⟨pending, passing⟩
  · rw [same]
  · rw [passing, due, if_neg (by simp [flushed]), passed_flushed, due, if_pos pending]

private theorem lastPolicy_flushPending (e : Flush) :
    (w.flushPending e).syncer.lastPolicy = w.syncer.lastPolicy := by
  rcases flush_cases w e with same | ⟨-, passing⟩
  · rw [same]
  · rw [passing]
    rfl

private theorem passed_of_idle (idle : w.pendingSet = false) : passed w = due w := by
  rw [due, if_neg (by simp [idle])]

/-- The calls after everything pending has been passed. -/
def drained (w : Watcher) : List Policy :=
  w.syncer.calls.map (·.policy) ++ if w.pendingSet then [w.pendingPolicy] else []

private theorem drained_flushPending (e : Flush) : drained (w.flushPending e) = drained w := by
  rcases flush_cases w e with same | ⟨pending, passing⟩
  · rw [same]
  · rw [passing, drained, drained, if_neg (by simp [flushed]), if_pos pending]
    show (w.syncer.calls ++ [_]).map Call.policy ++ [] = _
    rw [List.map_append, List.append_nil]
    rfl

private theorem governing_of_idle (accepts : Policy → Bool) (idle : w.pendingSet = false) :
    governing accepts w = ((drained w).filter accepts).getLast? := by
  rw [governing, drained, if_neg (by simp [idle]), List.append_nil]

private theorem due_eq_drained : due w = (drained w).getLast? := by
  unfold due drained
  split
  · rw [List.getLast?_concat]
  · rw [List.append_nil, passed, List.getLast?_map]

/-! Events. -/

def queued (w : Watcher) (v : Policy) : Watcher :=
  { w with
    syncer := { w.syncer with lastPolicy := v }
    pendingPolicy := v
    pendingSet := true }

private theorem processEvent_unusable {ev : Event} (none : usable ev = none) :
    w.processEvent ev = w := by
  cases ev with
  | absent => rfl
  | delete => rfl
  | put bytes =>
      simp only [usable, ite_eq_left_iff, reduceCtorEq, imp_false, Decidable.not_not] at none
      exact if_pos none

private theorem processEvent_usable {ev : Event} {v : Policy} (some : usable ev = some v) :
    w.processEvent ev = if v = w.syncer.lastPolicy then w else queued w v := by
  cases ev with
  | absent => exact absurd some (by simp [usable])
  | delete => exact absurd some (by simp [usable])
  | put bytes =>
      obtain ⟨fits, same⟩ := Option.ite_none_left_eq_some.mp some
      obtain rfl := Option.some.inj same
      rcases processEvent_put_cases w bytes with ⟨oversized | known, same⟩ | ⟨⟨-, fresh⟩, queues⟩
      · exact absurd oversized fits
      · rw [if_pos known, same]
      · rw [if_neg fresh, queues]
        rfl

theorem processEvents_cases (w : Watcher) (events : List Event) :
    (∀ v ∈ events.filterMap usable, v = w.syncer.lastPolicy) ∧
        events.foldl Watcher.processEvent w = w ∨
      (∃ v ∈ events.filterMap usable, v ≠ w.syncer.lastPolicy) ∧
        ∃ v, (events.filterMap usable).getLast? = some v ∧
          events.foldl Watcher.processEvent w = queued w v := by
  induction events using List.reverseRecOn with
  | nil => exact Or.inl ⟨by simp, rfl⟩
  | append_singleton events ev ih =>
      rw [List.foldl_append, List.filterMap_append]
      show _ ∧ (events.foldl Watcher.processEvent w).processEvent ev = _ ∨
        _ ∧ ∃ v, _ ∧ (events.foldl Watcher.processEvent w).processEvent ev = _
      cases content : usable ev with
      | none =>
          rw [processEvent_unusable content]
          simpa [content] using ih
      | some b =>
          have contents : [ev].filterMap usable = [b] := by simp [content]
          rw [processEvent_usable content, contents, List.getLast?_concat]
          rcases ih with ⟨quiet, same⟩ | ⟨loud, v, -, last⟩
          · rw [same]
            by_cases known : b = w.syncer.lastPolicy
            · refine Or.inl ⟨?_, if_pos known⟩
              intro v member
              rcases List.mem_append.mp member with before | now
              · exact quiet v before
              · rw [List.mem_singleton.mp now]
                exact known
            · exact Or.inr ⟨⟨b, by simp, known⟩, b, rfl, if_neg known⟩
          · obtain ⟨u, member, changed⟩ := loud
            refine Or.inr ⟨⟨u, List.mem_append_left _ member, changed⟩, b, rfl, ?_⟩
            rw [last]
            show (if b = v then queued w v else _) = _
            split
            · next same => rw [same]
            · rfl

/-! The cut. -/

private theorem collapse_last {events : List Event}
    (many : maxWatchEventsPerResponse < events.length) :
    ∃ earlier ev, events = earlier ++ [ev] ∧ collapse events = [ev] := by
  have nonempty : events ≠ [] := by
    rintro rfl
    exact absurd many (by simp)
  refine ⟨events.dropLast, events.getLast nonempty,
    (List.dropLast_concat_getLast nonempty).symm, ?_⟩
  rw [collapse, if_pos many]
  exact List.drop_length_sub_one nonempty

private theorem filter_repeat (accepts : Policy → Bool) (l : List Policy) (v : Policy) :
    ((l ++ [v] ++ [v]).filter accepts).getLast? = ((l ++ [v]).filter accepts).getLast? := by
  cases accepted : accepts v <;> simp [List.filter_append, accepted]

private theorem governing_queued (accepts : Policy → Bool) {v : Policy} (same : due w = some v) :
    ((drained (queued w v)).filter accepts).getLast? = ((drained w).filter accepts).getLast? := by
  have after : drained (queued w v) = w.syncer.calls.map (·.policy) ++ [v] := rfl
  rw [after]
  by_cases pending : w.pendingSet = true
  · rw [due, if_pos pending, Option.some_inj] at same
    rw [drained, if_pos pending, same]
  · rw [due_eq_drained] at same
    rw [drained, if_neg pending, List.append_nil] at same ⊢
    obtain ⟨earlier, calls⟩ := List.getLast?_eq_some_iff.mp same
    rw [calls]
    exact filter_repeat accepts earlier v

private theorem passed_processAll {events : List Event} {first last timer : Flush}
    (idle : ((processAll w events first last).flushPending timer).pendingSet = false) :
    passed ((processAll w events first last).flushPending timer) =
      due (events.foldl Watcher.processEvent (w.flushPending first)) := by
  rw [passed_of_idle idle, due_flushPending, processAll, due_flushPending]

private theorem governing_processAll (accepts : Policy → Bool) {events : List Event}
    {first last timer : Flush}
    (idle : ((processAll w events first last).flushPending timer).pendingSet = false) :
    governing accepts ((processAll w events first last).flushPending timer) =
      ((drained (events.foldl Watcher.processEvent (w.flushPending first))).filter
        accepts).getLast? := by
  rw [governing_of_idle accepts idle, drained_flushPending, processAll, drained_flushPending]

private theorem last_event_iff (w : Watcher) (earlier : List Event) (ev : Event) :
    (due (w.processEvent ev) = due ((earlier ++ [ev]).foldl Watcher.processEvent w) ∧
      ∀ accepts, ((drained (w.processEvent ev)).filter accepts).getLast? =
        ((drained ((earlier ++ [ev]).foldl Watcher.processEvent w)).filter accepts).getLast?) ↔
      Harmless w (earlier ++ [ev]) := by
  have lastEvent : (earlier ++ [ev]).getLast?.bind usable = usable ev := by
    rw [List.getLast?_concat]
    rfl
  unfold Harmless
  rw [lastEvent]
  rcases processEvents_cases w (earlier ++ [ev]) with
    ⟨quiet, whole⟩ | ⟨⟨u, member, changed⟩, v, latest, whole⟩
  · -- Nothing new at all: neither way leaves a trace.
    have alone : w.processEvent ev = w := by
      cases content : usable ev with
      | none => exact processEvent_unusable content
      | some b =>
          have known := quiet b (by simp [List.filterMap_append, content])
          rw [processEvent_usable content, if_pos known]
    rw [whole, alone]
    exact ⟨fun _ => Or.inl quiet, fun _ => ⟨rfl, fun _ => rfl⟩⟩
  · have queuedDue : due (queued w v) = some v := rfl
    rw [whole, queuedDue]
    by_cases fresh : ∃ b, usable ev = some b ∧ b ≠ w.syncer.lastPolicy
    · -- The last event alone queues the same content.
      obtain ⟨b, content, new⟩ := fresh
      have same : b = v := by
        simp only [List.filterMap_append, List.filterMap_cons, content, List.filterMap_nil,
          List.getLast?_concat, Option.some_inj] at latest
        exact latest
      rw [processEvent_usable content, if_neg new, same]
      exact ⟨fun _ => Or.inr (Or.inl ⟨b, content, new⟩), fun _ => ⟨rfl, fun _ => rfl⟩⟩
    · -- The last event alone does nothing.
      have alone : w.processEvent ev = w := by
        cases content : usable ev with
        | none => exact processEvent_unusable content
        | some b =>
            have known : b = w.syncer.lastPolicy := by
              by_contra new
              exact fresh ⟨b, content, new⟩
            rw [processEvent_usable content, if_pos known]
      rw [alone]
      constructor
      · intro agree
        exact Or.inr (Or.inr ⟨v, latest, agree.1⟩)
      · rintro (quiet | new | ⟨v', latest', same⟩)
        · exact absurd (quiet u member) changed
        · exact absurd new fresh
        · obtain rfl : v = v' := Option.some.inj (latest.symm.trans latest')
          exact ⟨same, fun accepts => (governing_queued accepts same).symm⟩

/-- From any state and for any oversized response, once both have flushed what is pending: the
cut response and the whole one agree on the content passed last, and on the content that
governs under any callback, if and only if the cut is harmless. -/
theorem collapse_harmless_iff (w : Watcher) (events : List Event)
    (first last last' timer timer' : Flush)
    (many : maxWatchEventsPerResponse < events.length)
    (idle : ((w.processResponse events first last).flushPending timer).pendingSet = false)
    (idle' : ((processAll w events first last').flushPending timer').pendingSet = false) :
    (passed ((w.processResponse events first last).flushPending timer) =
        passed ((processAll w events first last').flushPending timer') ∧
      ∀ accepts, governing accepts ((w.processResponse events first last).flushPending timer) =
        governing accepts ((processAll w events first last').flushPending timer')) ↔
      Harmless w events := by
  obtain ⟨earlier, ev, rfl, cut⟩ := collapse_last many
  have collapsed : w.processResponse (earlier ++ [ev]) first last =
      processAll w [ev] first last := by
    show processAll w (collapse (earlier ++ [ev])) first last = _
    rw [cut]
  have start : Harmless (w.flushPending first) (earlier ++ [ev]) ↔
      Harmless w (earlier ++ [ev]) := by
    rw [Harmless, lastPolicy_flushPending, due_flushPending]
    rfl
  rw [collapsed] at idle ⊢
  rw [passed_processAll idle, passed_processAll idle', ← start, ← last_event_iff]
  simp only [governing_processAll _ idle, governing_processAll _ idle']
  rfl

private theorem processAll_idle (fresh : w.lastReload = none) (nothing : w.pendingSet = false)
    (events : List Event) (first last timer : Flush) :
    ((processAll w events first last).flushPending timer).pendingSet = false := by
  have start : w.flushPending first = w := by
    rw [Watcher.flushPending, nothing]
    rfl
  have kept : (events.foldl Watcher.processEvent w).lastReload = none := by
    rcases processEvents_cases w events with ⟨-, same⟩ | ⟨-, v, -, same⟩
    · rw [same]
      exact fresh
    · rw [same]
      exact fresh
  have idle (e : Flush) {x : Watcher} (still : x.pendingSet = false) :
      (x.flushPending e).pendingSet = false := by
    rw [Watcher.flushPending, still]
    exact still
  apply idle
  rw [processAll, start]
  rcases flushPending_cases (events.foldl Watcher.processEvent w) last with
    ⟨quiet | early, same⟩ | ⟨-, passing⟩
  · rw [same]
    exact quiet
  · exact absurd early (by simp [kept, elapsed])
  · rw [passing]

def anyFlush : Flush := ⟨0, 0, .ok⟩

def endsWithPolicy : List Event := List.replicate 10000 .delete ++ [.put [65]]

theorem endsWithPolicy_harmless :
    Harmless initial.watcher endsWithPolicy ∧
      passed ((initial.watcher.processResponse endsWithPolicy anyFlush anyFlush).flushPending
          anyFlush) =
        passed ((processAll initial.watcher endsWithPolicy anyFlush anyFlush).flushPending
          anyFlush) := by
  have harmless : Harmless initial.watcher endsWithPolicy := by
    refine Or.inr (Or.inl ⟨[65], ?_, by decide⟩)
    rw [endsWithPolicy, List.getLast?_concat]
    rfl
  have many : maxWatchEventsPerResponse < endsWithPolicy.length := by
    rw [endsWithPolicy, List.length_append, List.length_replicate]
    decide
  exact ⟨harmless, ((collapse_harmless_iff initial.watcher endsWithPolicy anyFlush anyFlush anyFlush
    anyFlush anyFlush many (processAll_idle rfl rfl _ _ _ _)
    (processAll_idle rfl rfl _ _ _ _)).mpr harmless).1⟩

def endsWithDelete : List Event := List.replicate 10000 (.put [65]) ++ [.delete]

/-- The whole response passes the policy on; cut down to the deletion it passes nothing. -/
theorem endsWithDelete_loses_policy :
    maxWatchEventsPerResponse < endsWithDelete.length ∧
      passed ((initial.watcher.processResponse endsWithDelete anyFlush anyFlush).flushPending
        anyFlush) = none ∧
      passed ((processAll initial.watcher endsWithDelete anyFlush anyFlush).flushPending
        anyFlush) = some [65] := by
  have many : maxWatchEventsPerResponse < endsWithDelete.length := by
    rw [endsWithDelete, List.length_append, List.length_replicate]
    decide
  refine ⟨many, ?_, ?_⟩
  · have cut : collapse endsWithDelete = [.delete] := by
      rw [collapse, if_pos many, endsWithDelete, List.length_append, List.length_replicate]
      exact List.drop_left' (List.length_replicate ..)
    rw [Watcher.processResponse, cut]
    rfl
  · rw [passed_processAll (processAll_idle rfl rfl _ _ _ _)]
    have contents : endsWithDelete.filterMap usable = List.replicate 10000 [65] := by
      have written : usable (.put [65]) = some [65] := by decide
      rw [endsWithDelete, List.filterMap_append, List.filterMap_replicate_of_some written]
      exact List.append_nil _
    rcases processEvents_cases initial.watcher endsWithDelete with
      ⟨quiet, -⟩ | ⟨-, v, latest, whole⟩
    · have written := quiet [65] (contents ▸ List.mem_replicate.mpr ⟨by decide, rfl⟩)
      exact absurd written (by decide)
    · have same : v = [65] := by
        rw [contents] at latest
        exact List.eq_of_mem_replicate (List.mem_of_getLast? latest)
      show due (endsWithDelete.foldl Watcher.processEvent initial.watcher) = _
      rw [whole, same]
      rfl

end L3Firewall.Sync.Collapse
