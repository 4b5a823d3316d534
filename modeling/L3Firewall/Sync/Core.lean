/- Sync/Core
   source: internal/syncer/syncer.go
   digest: The policy syncer: dedupe, the pending slot, the watch loop and its reconnects. -/

import L3Firewall.Foundation.Runs

set_option autoImplicit false
set_option relaxedAutoImplicit false

namespace L3Firewall.Sync.Core

open Foundation.Runs

abbrev Policy := List UInt8

def maxPolicySize : Nat := 10 * 1024 * 1024

def maxWatchEventsPerResponse : Nat := 10000

/-- Clock readings, in nanoseconds. -/
abbrev Time := Nat

def minReloadInterval : Int := 100000000

inductive Outcome
  | ok
  | error (text : String)
  | panic (text : String)
  deriving DecidableEq

/-- The error of a guarded call; `none` is nil. -/
def safeOnUpdate : Outcome → Option String
  | .ok => none
  | .error text => some text
  | .panic text => some ("onUpdate panic: " ++ text)

/-- One call of the callback and the error it was logged with. -/
structure Call where
  policy : Policy
  err : Option String
  deriving DecidableEq

/-- `lastPolicy` is the last processed content, applied or rejected; `calls` lists the
calls made so far. -/
structure Syncer where
  lastPolicy : Policy
  calls : List Call
  deriving DecidableEq

def Syncer.invoke (s : Syncer) (fn : Outcome) (policy : Policy) : Syncer :=
  { s with calls := s.calls ++ [⟨policy, safeOnUpdate fn⟩] }

/-- True when the caller should invoke the callback. -/
def Syncer.applyPolicy (s : Syncer) (policy : Policy) : Bool × Syncer :=
  if policy = s.lastPolicy then (false, s) else (true, { s with lastPolicy := policy })

/-- What a Get comes back with: an error, a response without a key/value, or a value. -/
inductive GetResponse
  | failed
  | missing
  | value (bytes : Policy)
  deriving DecidableEq

/-- The result is the content read, empty when nothing usable was. -/
def Syncer.loadCurrent (s : Syncer) (resp : GetResponse) (fn : Outcome) : Policy × Syncer :=
  match resp with
  | .failed => ([], s)
  | .missing => ([], s)
  | .value bytes =>
      if maxPolicySize < bytes.length then ([], s)
      else
        match s.applyPolicy bytes with
        | (false, s) => (bytes, s)
        | (true, s) => (bytes, s.invoke fn bytes)

/-- The variables of the watch loop. `lastReload` is `none` while it is the zero time. -/
structure Watcher where
  syncer : Syncer
  lastReload : Option Time
  pendingPolicy : Policy
  pendingSet : Bool
  deriving DecidableEq

/-- What one flush meets: the clock before and after the callback, and its outcome. -/
structure Flush where
  now : Time
  after : Time
  fn : Outcome

/-- The window since the last reload has passed. The zero time lies far back. -/
def elapsed (lastReload : Option Time) (now : Time) : Bool :=
  match lastReload with
  | none => true
  | some reload => decide (minReloadInterval ≤ (now : Int) - reload)

def Watcher.flushPending (w : Watcher) (e : Flush) : Watcher :=
  if !w.pendingSet then w
  else if !elapsed w.lastReload e.now then w
  else
    { w with
      pendingSet := false
      syncer := w.syncer.invoke e.fn w.pendingPolicy
      lastReload := some e.after }

/-- A watch event: nil or without key/value, a deletion, or a write. -/
inductive Event
  | absent
  | delete
  | put (bytes : Policy)
  deriving DecidableEq

def Watcher.processEvent (w : Watcher) : Event → Watcher
  | .absent => w
  | .delete => w
  | .put bytes =>
      if maxPolicySize < bytes.length then w
      else
        match w.syncer.applyPolicy bytes with
        | (false, s) => { w with syncer := s }
        | (true, s) => { w with syncer := s, pendingPolicy := bytes, pendingSet := true }

/-- An oversized response is cut down to its last event. -/
def collapse (events : List Event) : List Event :=
  if maxWatchEventsPerResponse < events.length then events.drop (events.length - 1) else events

def Watcher.processResponse (w : Watcher) (events : List Event) (first last : Flush) : Watcher :=
  (((collapse events).foldl Watcher.processEvent (w.flushPending first))).flushPending last

/-- The resync of a reconnect. Queued content that differs from what was read is dropped. -/
def Watcher.resync (w : Watcher) (resp : GetResponse) (fn : Outcome) : Watcher :=
  let (current, s) := w.syncer.loadCurrent resp fn
  let w := { w with syncer := s }
  if current ≠ [] ∧ w.pendingSet = true ∧ w.pendingPolicy ≠ current then
    { w with pendingSet := false }
  else w

inductive Control
  | starting | opening | watching | reconnecting | delaying | stopped
  deriving DecidableEq

structure State where
  control : Control
  watcher : Watcher
  deriving DecidableEq

inductive Input
  | get (resp : GetResponse) (fn : Outcome)
  | opened
  | response (events : List Event) (first last : Flush)
  | timer (e : Flush)
  | terminated
  | delayElapsed
  | stop

/-- One step of Start, loadCurrent and watch. The timer is armed only while content is
pending. -/
def step (s : State) : Input → Option State
  | .get resp fn =>
      match s.control with
      | .starting =>
          some ⟨.opening, { s.watcher with syncer := (s.watcher.syncer.loadCurrent resp fn).2 }⟩
      | .reconnecting => some ⟨.delaying, s.watcher.resync resp fn⟩
      | _ => none
  | .opened => if s.control = .opening then some { s with control := .watching } else none
  | .response events first last =>
      if s.control = .watching then
        some { s with watcher := s.watcher.processResponse events first last }
      else none
  | .timer e =>
      if s.control = .watching ∧ s.watcher.pendingSet = true then
        some { s with watcher := s.watcher.flushPending e }
      else none
  | .terminated =>
      if s.control = .watching then some { s with control := .reconnecting } else none
  | .delayElapsed =>
      if s.control = .delaying then some { s with control := .opening } else none
  | .stop =>
      match s.control with
      | .watching | .reconnecting | .delaying => some { s with control := .stopped }
      | _ => none

def initial : State where
  control := .starting
  watcher := ⟨⟨[], []⟩, none, [], false⟩

/-- The syncer on its own, under any behaviour of etcd and of the callback. -/
def syncer : Machine State Input := ⟨fun s => s = initial, step⟩

end L3Firewall.Sync.Core
