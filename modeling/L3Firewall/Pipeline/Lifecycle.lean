/- Pipeline/Lifecycle
   source: internal/engine/engine.go, cmd/server/main.go
   digest: Run, Stop, the signal handler, the receive loop and the ticker, in every order. -/

import L3Firewall.Pipeline.Interleaving
import L3Firewall.Pipeline.Quiet
import L3Firewall.Pipeline.Restart

set_option autoImplicit false
set_option relaxedAutoImplicit false

namespace L3Firewall.Pipeline.Lifecycle

open Foundation.FiniteMap
open Foundation.Runs (Machine)
open Foundation.Utf8 (Bytes)
open Filepath.Lexical (Pathname)
open Conntrack.FlowTable (FlowOrder Time)
open Packet.Parser (Decoder)
open Opa.Evaluator (Text)
open Persist.State (EngineState Files Loading Saving SaveState)
open Handlers
open Interleaving (idleThreshold)
open Restart (copied restoreState)

/-- The next statement of main, from its call of `Run` on. The second line is the way out
after a failed Open or Register; `clean` tells whether `Run` returned nil. -/
inductive Statement
  | restore | publish | openQueue | markRunning | register | startTicker | await
  | closeFailed | clearFailed | abandon | linger
  | closeQueue | clearRunning
  | exited (clean : Bool)
  deriving DecidableEq

/-- The goroutine that is registered for signals. Stop is its statements `reading` and
`stopping`, with whether it found a cancel function. -/
inductive Handler
  | waiting | draining | reading
  | stopping (found : Bool)
  | releasing | done
  deriving DecidableEq

inductive Socket
  | absent | opened | closed
  deriving DecidableEq

inductive Loop
  | absent | receiving | handling | ended
  deriving DecidableEq

/-- The goroutine that Run starts. It saves in two moves, since only the copy is made under the
lock of the statistics. -/
inductive Ticker
  | absent | waiting
  | copying (last : Bool)
  | writing (last : Bool) (copy : FMap Bytes Int64)
  | ended

/-- `published` is a set e.cancel, `cancelled` the context of `Run`, `released` that of main. -/
structure Process where
  main : Statement
  handler : Handler
  published : Bool
  cancelled : Bool
  released : Bool
  running : Bool
  socket : Socket
  loop : Loop
  ticker : Ticker
  queue : Queue
  files : Files

structure World where
  loading : Loading
  merge : RangeOrder ((_ : Bytes) × Int64)
  opens : Bool
  registers : Bool

inductive Label
  | main (world : World)
  | signal
  | handler
  | receive
  | handle (env : Env) (attr : Attribute)
  | stopLoop
  | tick (o : FlowOrder) (expireTime cleanupTime : Time)
  | lastTick
  | copy (o : RangeOrder ((_ : Text) × Int))
  | write (sys : Saving)
  | boot (fresh : Engine)

def Statement.gone : Statement → Bool
  | .exited _ => true
  | _ => false

def boot (files : Files) (fresh : Engine) : Process where
  main := .restore
  handler := .waiting
  published := false
  cancelled := false
  released := false
  running := false
  socket := .absent
  loop := .absent
  ticker := .absent
  queue := ⟨fresh, []⟩
  files := files

def Process.withEngine (p : Process) (e : Engine) : Process :=
  { p with queue := { p.queue with engine := e } }

def mainStep (path : Pathname) (world : World) (p : Process) : Option Process :=
  match p.main with
  | .restore =>
      some { p.withEngine
          (restoreState world.loading world.merge path p.files p.queue.engine) with
        main := .publish }
  | .publish => some { p with main := .openQueue, published := true }
  | .openQueue =>
      some (if world.opens then { p with main := .markRunning, socket := .opened }
        else { p with main := .abandon })
  | .markRunning => some { p with main := .register, running := true }
  | .register =>
      some (if world.registers then { p with main := .startTicker, loop := .receiving }
        else { p with main := .closeFailed })
  | .startTicker => some { p with main := .await, ticker := .waiting }
  | .await => if p.cancelled then some { p with main := .closeQueue } else none
  | .closeQueue => some { p with main := .clearRunning, socket := .closed }
  | .clearRunning => some { p with main := .exited true, running := false }
  | .closeFailed => some { p with main := .clearFailed, socket := .closed }
  | .clearFailed => some { p with main := .abandon, running := false }
  | .abandon => some { p with main := .linger, cancelled := true }
  | .linger => if p.released then some { p with main := .exited false } else none
  | .exited _ => none

/-- The server's shutdown takes its time and returns. -/
def handlerStep (p : Process) : Option Process :=
  match p.handler with
  | .waiting => none
  | .draining => some { p with handler := .reading }
  | .reading => some { p with handler := .stopping p.published }
  | .stopping found =>
      some { p with handler := .releasing, cancelled := p.cancelled || found }
  | .releasing => some { p with handler := .done, released := true }
  | .done => none

/-- A panic that leaves the hook ends the process, which is a `boot` at this point. -/
def handle (d : Decoder) (env : Env) (attr : Attribute) (p : Process) : Option Process :=
  match handleQueuePacket d env attr p.queue with
  | (.ok ret, queue) =>
      some { p with queue := queue, loop := if ret = 0 then .receiving else .ended }
  | (.error _, _) => none

def sweep (o : FlowOrder) (expireTime cleanupTime : Time) (e : Engine) : Engine :=
  { e with
    conntrack := e.conntrack.map (·.expire o expireTime)
    ratelimit := e.ratelimit.map (·.Cleanup idleThreshold cleanupTime |>.2) }

/-- Signals are caught from the first one on, and only that one is read. The loop ends by an
error, by the context or by the closed socket. -/
def stepAlive (d : Decoder) (path : Pathname) (p : Process) : Label → Option Process
  | .main world => mainStep path world p
  | .signal => some (if p.handler = .waiting then { p with handler := .draining } else p)
  | .handler => handlerStep p
  | .receive =>
      if p.loop = .receiving ∧ p.socket = .opened then some { p with loop := .handling } else none
  | .handle env attr => if p.loop = .handling then handle d env attr p else none
  | .stopLoop => if p.loop = .receiving then some { p with loop := .ended } else none
  | .tick o expireTime cleanupTime =>
      match p.ticker with
      | .waiting => some { p.withEngine (sweep o expireTime cleanupTime p.queue.engine) with
          ticker := .copying false }
      | _ => none
  | .lastTick =>
      match p.ticker, p.cancelled with
      | .waiting, true => some { p with ticker := .copying true }
      | _, _ => none
  | .copy o =>
      match p.ticker with
      | .copying last =>
          some { p with ticker := .writing last (copied o p.queue.engine.blockStats) }
      | _ => none
  | .write sys =>
      match p.ticker with
      | .writing last copy =>
          some { p with
            ticker := if last then .ended else .waiting
            files := (SaveState sys path (some ⟨copy⟩) p.files).2 }
      | _ => none
  | .boot _ => none

/-- With main all goroutines are gone. A process can be replaced at any moment: it was killed,
or it panicked, or it exited. -/
def next (d : Decoder) (path : Pathname) (p : Process) : Label → Option Process
  | .boot fresh => some (boot p.files fresh)
  | label => if p.main.gone then none else stepAlive d path p label

/-- A firewall on one machine, one process after the other. -/
def firewall (d : Decoder) (path : Pathname) : Machine Process Label where
  init p := ∃ files fresh, p = boot files fresh
  next := next d path

def Label.boots : Label → Bool
  | .boot _ => true
  | _ => false

def Label.works : Label → Bool
  | .main _ | .handler => true
  | _ => false

section Stages

def Statement.marked : Statement → Bool
  | .register | .startTicker | .await | .closeQueue | .clearRunning | .closeFailed
  | .clearFailed => true
  | _ => false

def Statement.holds : Statement → Bool
  | .markRunning | .register | .startTicker | .await | .closeQueue | .closeFailed => true
  | _ => false

def Statement.published : Statement → Bool
  | .restore | .publish => false
  | _ => true

def Statement.finished : Statement → Bool
  | .closeQueue | .clearRunning | .linger | .exited _ => true
  | _ => false

def Statement.failed : Statement → Bool
  | .closeFailed | .clearFailed | .abandon | .linger | .exited false => true
  | _ => false

def Handler.called : Handler → Bool
  | .releasing | .done => true
  | _ => false

def Statement.ticking : Statement → Bool
  | .await | .closeQueue | .clearRunning | .exited true => true
  | _ => false

/-- The loop was started, and main has not gone the way of a failed call. -/
def Statement.registered : Statement → Bool
  | .startTicker | .await | .closeQueue | .clearRunning | .exited true => true
  | _ => false

end Stages

/-- The flags of a process follow from where its goroutines are. -/
structure Consistent (p : Process) : Prop where
  running : p.running = p.main.marked
  socket : p.socket = .opened ↔ p.main.holds = true
  published : p.published = p.main.published
  cancelled : p.cancelled = true → p.published = true
  finished : p.main.finished = true → p.cancelled = true
  stopping : p.handler = .stopping true → p.published = true
  called : p.cancelled = true → p.main.failed = false → p.handler.called = true
  released : p.released = true ↔ p.handler = .done
  left : p.main = .exited false → p.released = true
  loop : p.loop ≠ .absent → p.main.registered = true
  ticker : p.ticker ≠ .absent → p.main.ticking = true

section Steps

attribute [local simp] Statement.marked Statement.holds Statement.published Statement.finished
  Statement.failed Statement.registered Handler.called Process.withEngine

variable {d : Decoder} {path : Pathname} {p q : Process} {label : Label}

theorem boot_consistent (files : Files) (fresh : Engine) : Consistent (boot files fresh) where
  running := rfl
  socket := ⟨nofun, nofun⟩
  published := rfl
  cancelled := nofun
  finished := nofun
  stopping := nofun
  called := nofun
  released := ⟨nofun, nofun⟩
  left := nofun
  loop := fun started => absurd rfl started
  ticker := fun started => absurd rfl started

-- Each statement disturbs one or two of the facts; the others stand as they are.
theorem mainStep_consistent {world : World} (known : Consistent p)
    (taken : mainStep path world p = some q) : Consistent q := by
  obtain ⟨running, socket, published, cancelled, finished, stopping, called, released, left, loop,
    ticker⟩ := known
  unfold mainStep at taken
  cases here : p.main with
  | exited clean => simp only [here, reduceCtorEq] at taken
  | await =>
      simp only [here, Option.ite_none_right_eq_some, Option.some.injEq] at taken
      obtain ⟨woken, rfl⟩ := taken
      rw [here] at running socket published called loop ticker
      exact ⟨running, socket, published, cancelled, fun _ => woken, stopping, called, released,
        nofun, loop, ticker⟩
  | linger =>
      simp only [here, Option.ite_none_right_eq_some, Option.some.injEq] at taken
      obtain ⟨woken, rfl⟩ := taken
      rw [here] at running socket published finished loop ticker
      exact ⟨running, socket, published, cancelled, finished, stopping, fun _ => nofun, released,
        fun _ => woken, loop, ticker⟩
  | openQueue =>
      simp only [here, Option.some.injEq] at taken
      rw [here] at running socket published finished called loop ticker
      split at taken
      · subst taken
        exact ⟨running, ⟨fun _ => rfl, fun _ => rfl⟩, published, cancelled, finished, stopping,
          called, released, nofun, loop, ticker⟩
      · subst taken
        exact ⟨running, socket, published, cancelled, finished, stopping, fun _ => nofun, released,
          nofun, loop, ticker⟩
  | register =>
      simp only [here, Option.some.injEq] at taken
      rw [here] at running socket published finished called loop ticker
      split at taken
      · subst taken
        exact ⟨running, socket, published, cancelled, finished, stopping, called, released, nofun,
          fun _ => rfl, ticker⟩
      · subst taken
        exact ⟨running, socket, published, cancelled, finished, stopping, fun _ => nofun, released,
          nofun, loop, ticker⟩
  | restore =>
      simp only [here, Option.some.injEq] at taken
      subst taken
      rw [here] at running socket published finished called loop ticker
      exact ⟨running, socket, published, cancelled, finished, stopping, called, released, nofun,
        loop, ticker⟩
  | startTicker =>
      simp only [here, Option.some.injEq] at taken
      subst taken
      rw [here] at running socket published finished called loop
      exact ⟨running, socket, published, cancelled, finished, stopping, called, released, nofun,
        loop, fun _ => rfl⟩
  | publish =>
      simp only [here, Option.some.injEq] at taken
      subst taken
      rw [here] at running socket finished called loop ticker
      exact ⟨running, socket, rfl, fun _ => rfl, finished, fun _ => rfl, called, released, nofun,
        loop, ticker⟩
  | markRunning | clearRunning | clearFailed =>
      simp only [here, Option.some.injEq] at taken
      subst taken
      rw [here] at socket published finished called loop ticker
      exact ⟨rfl, socket, published, cancelled, finished, stopping, called, released, nofun,
        loop, ticker⟩
  | closeQueue | closeFailed =>
      simp only [here, Option.some.injEq] at taken
      subst taken
      rw [here] at running published finished called loop ticker
      exact ⟨running, ⟨nofun, nofun⟩, published, cancelled, finished, stopping, called, released,
        nofun, loop, ticker⟩
  | abandon =>
      simp only [here, Option.some.injEq] at taken
      subst taken
      rw [here] at running socket published loop ticker
      exact ⟨running, socket, published, fun _ => published, fun _ => rfl, stopping,
        fun _ => nofun, released, nofun, loop, ticker⟩

theorem handlerStep_consistent (known : Consistent p) (taken : handlerStep p = some q) :
    Consistent q := by
  obtain ⟨running, socket, published, cancelled, finished, stopping, called, released, left, loop,
    ticker⟩ := known
  unfold handlerStep at taken
  cases here : p.handler with
  | waiting | done => simp only [here, reduceCtorEq] at taken
  | draining =>
      simp only [here, Option.some.injEq] at taken
      subst taken
      rw [here] at called released
      exact ⟨running, socket, published, cancelled, finished, nofun, called,
        ⟨fun freed => (nomatch released.mp freed), nofun⟩, left, loop, ticker⟩
  | reading =>
      simp only [here, Option.some.injEq] at taken
      subst taken
      rw [here] at called released
      exact ⟨running, socket, published, cancelled, finished, Handler.stopping.inj, called,
        ⟨fun freed => (nomatch released.mp freed), nofun⟩, left, loop, ticker⟩
  | stopping found =>
      simp only [here, Option.some.injEq] at taken
      subst taken
      rw [here] at stopping released
      refine ⟨running, socket, published, fun done => ?_, fun past => ?_, nofun, fun _ _ => rfl,
        ⟨fun freed => (nomatch released.mp freed), nofun⟩, left, loop, ticker⟩
      · rcases Bool.or_eq_true_iff.mp done with before | rfl
        · exact cancelled before
        · exact stopping rfl
      · exact Bool.or_eq_true_iff.mpr (.inl (finished past))
  | releasing =>
      simp only [here, Option.some.injEq] at taken
      subst taken
      exact ⟨running, socket, published, cancelled, finished, nofun, fun _ _ => rfl,
        ⟨fun _ => rfl, fun _ => rfl⟩, fun _ => rfl, loop, ticker⟩

theorem mainStep_frame {world : World} (taken : mainStep path world p = some q) :
    q.files = p.files ∧ (p.main ≠ .restore → q.queue = p.queue) ∧
      (p.main ≠ .register → q.loop = p.loop) ∧ (p.main ≠ .startTicker → q.ticker = p.ticker) := by
  unfold mainStep at taken
  cases here : p.main with
  | exited clean => simp only [here, reduceCtorEq] at taken
  | await | linger =>
      simp only [here, Option.ite_none_right_eq_some, Option.some.injEq] at taken
      obtain ⟨-, rfl⟩ := taken
      exact ⟨rfl, fun _ => rfl, fun _ => rfl, fun _ => rfl⟩
  | openQueue =>
      simp only [here, Option.some.injEq] at taken
      split at taken <;> subst taken <;> exact ⟨rfl, fun _ => rfl, fun _ => rfl, fun _ => rfl⟩
  | register =>
      simp only [here, Option.some.injEq] at taken
      split at taken <;> subst taken <;>
        exact ⟨rfl, fun _ => rfl, fun other => absurd rfl other, fun _ => rfl⟩
  | restore =>
      simp only [here, Option.some.injEq] at taken
      subst taken
      exact ⟨rfl, fun other => absurd rfl other, fun _ => rfl, fun _ => rfl⟩
  | startTicker =>
      simp only [here, Option.some.injEq] at taken
      subst taken
      exact ⟨rfl, fun _ => rfl, fun _ => rfl, fun other => absurd rfl other⟩
  | publish | markRunning | closeQueue | clearRunning | closeFailed | clearFailed | abandon =>
      simp only [here, Option.some.injEq] at taken
      subst taken
      exact ⟨rfl, fun _ => rfl, fun _ => rfl, fun _ => rfl⟩

theorem handlerStep_frame (taken : handlerStep p = some q) :
    q.main = p.main ∧ q.files = p.files ∧ q.queue = p.queue ∧ q.loop = p.loop ∧
      q.ticker = p.ticker := by
  unfold handlerStep at taken
  cases here : p.handler with
  | waiting | done => simp only [here, reduceCtorEq] at taken
  | draining | reading | stopping found | releasing =>
      simp only [here, Option.some.injEq] at taken
      subst taken
      exact ⟨rfl, rfl, rfl, rfl, rfl⟩

private theorem signal_consistent (known : Consistent p) :
    Consistent (if p.handler = .waiting then { p with handler := .draining } else p) := by
  split
  · next waits =>
      obtain ⟨running, socket, published, cancelled, finished, stopping, called, released, left,
        loop, ticker⟩ := known
      rw [waits] at called released
      exact ⟨running, socket, published, cancelled, finished, nofun, called,
        ⟨fun freed => (nomatch released.mp freed), nofun⟩, left, loop, ticker⟩
  · exact known

def Process.control (p : Process) : Statement × Handler × Bool × Bool × Bool × Bool × Socket :=
  (p.main, p.handler, p.published, p.cancelled, p.released, p.running, p.socket)

def Label.background : Label → Bool
  | .receive | .handle _ _ | .stopLoop | .tick _ _ _ | .lastTick | .copy _ | .write _ => true
  | _ => false

private theorem background_control (behind : label.background = true)
    (taken : stepAlive d path p label = some q) :
    q.control = p.control ∧ (q.loop ≠ .absent → p.loop ≠ .absent) ∧
      (q.ticker ≠ .absent → p.ticker ≠ .absent) := by
  cases label with
  | main | signal | handler | boot => exact absurd behind nofun
  | receive | stopLoop =>
      simp only [stepAlive, Option.ite_none_right_eq_some, Option.some.injEq] at taken
      obtain ⟨enabled, rfl⟩ := taken
      exact ⟨rfl, by simp_all, id⟩
  | handle env attr =>
      simp only [stepAlive, Option.ite_none_right_eq_some] at taken
      obtain ⟨handling, taken⟩ := taken
      unfold handle at taken
      split at taken
      · obtain rfl := Option.some.inj taken
        exact ⟨rfl, by simp_all, id⟩
      · exact absurd taken nofun
  | tick | lastTick | copy | write =>
      simp only [stepAlive] at taken
      split at taken
      · obtain rfl := Option.some.inj taken
        exact ⟨rfl, id, by simp_all⟩
      · exact absurd taken nofun

private theorem Consistent.of_control (known : Consistent p) (same : q.control = p.control)
    (loop : q.loop ≠ .absent → p.loop ≠ .absent)
    (ticker : q.ticker ≠ .absent → p.ticker ≠ .absent) : Consistent q := by
  simp only [Process.control, Prod.mk.injEq] at same
  obtain ⟨main, handler, published, cancelled, released, running, socket⟩ := same
  constructor
  · rw [running, main, known.running]
  · rw [socket, main, known.socket]
  · rw [published, main, known.published]
  · rw [cancelled, published]
    exact known.cancelled
  · rw [main, cancelled]
    exact known.finished
  · rw [handler, published]
    exact known.stopping
  · rw [cancelled, main, handler]
    exact known.called
  · rw [released, handler, known.released]
  · rw [main, released]
    exact known.left
  · rw [main]
    exact fun started => known.loop (loop started)
  · rw [main]
    exact fun started => known.ticker (ticker started)

theorem stepAlive_consistent (known : Consistent p) (taken : stepAlive d path p label = some q) :
    Consistent q := by
  cases label with
  | main world => exact mainStep_consistent known taken
  | handler => exact handlerStep_consistent known taken
  | signal =>
      obtain rfl := Option.some.inj taken
      exact signal_consistent known
  | boot fresh => exact absurd taken nofun
  | receive | handle | stopLoop | tick | lastTick | copy | write =>
      obtain ⟨same, loop, ticker⟩ := background_control rfl taken
      exact known.of_control same loop ticker

private theorem Consistent.going (known : Consistent p) (waits : p.cancelled = false) :
    p.main.finished = false := by
  refine Bool.eq_false_iff.mpr fun finished => ?_
  rw [known.finished finished] at waits
  exact absurd waits nofun

private theorem Consistent.serving (known : Consistent p) (waits : p.cancelled = false)
    (registered : p.main.registered = true) : p.running = true ∧ p.socket = .opened := by
  have going := known.going waits
  rw [known.running, known.socket]
  cases here : p.main <;> simp_all

theorem next_cases (taken : next d path p label = some q) :
    (∃ fresh, label = .boot fresh ∧ q = boot p.files fresh) ∨
      label.boots = false ∧ p.main.gone = false ∧ stepAlive d path p label = some q := by
  cases label with
  | boot fresh => exact .inl ⟨fresh, rfl, (Option.some.inj taken).symm⟩
  | _ =>
      refine .inr ⟨rfl, ?_⟩
      simpa [next] using taken

private theorem reachable_consistent {ok : Process → Label → Prop}
    (reached : (firewall d path).Reachable ok p) : Consistent p := by
  refine reached.invariant Consistent ?_ fun p label q _ known _ taken => ?_
  · rintro p ⟨files, fresh, rfl⟩
    exact boot_consistent files fresh
  · rcases next_cases taken with ⟨fresh, -, rfl⟩ | ⟨-, -, taken⟩
    · exact boot_consistent p.files fresh
    · exact stepAlive_consistent known taken

end Steps

section Progress

variable {d : Decoder} {path : Pathname} {p q : Process} {label : Label}

/-- How many statements main has before it at most. -/
def Statement.rank : Statement → Nat
  | .restore => 9
  | .publish => 8
  | .openQueue => 7
  | .markRunning => 6
  | .register => 5
  | .startTicker | .closeFailed => 4
  | .await | .clearFailed => 3
  | .closeQueue | .abandon => 2
  | .clearRunning | .linger => 1
  | .exited _ => 0

def Handler.rank : Handler → Nat
  | .waiting => 5
  | .draining => 4
  | .reading => 3
  | .stopping _ => 2
  | .releasing => 1
  | .done => 0

def Process.rank (p : Process) : Nat := p.main.rank + p.handler.rank

private theorem rank_le (p : Process) : p.rank ≤ 14 := by
  have main : p.main.rank ≤ 9 := by cases p.main <;> simp [Statement.rank]
  have handler : p.handler.rank ≤ 5 := by cases p.handler <;> simp [Handler.rank]
  unfold Process.rank
  omega

theorem mainStep_rank {world : World} (taken : mainStep path world p = some q) :
    q.main.rank < p.main.rank ∧ q.handler = p.handler := by
  unfold mainStep at taken
  cases here : p.main with
  | exited clean => simp only [here, reduceCtorEq] at taken
  | await | linger =>
      simp only [here, Option.ite_none_right_eq_some, Option.some.injEq] at taken
      obtain ⟨woken, rfl⟩ := taken
      exact ⟨by simp [Statement.rank], rfl⟩
  | openQueue | register =>
      simp only [here, Option.some.injEq] at taken
      split at taken <;> subst taken <;> exact ⟨by simp [Statement.rank], rfl⟩
  | restore | publish | markRunning | startTicker | closeQueue | clearRunning | closeFailed
  | clearFailed | abandon =>
      simp only [here, Option.some.injEq] at taken
      subst taken
      exact ⟨by simp [Statement.rank], rfl⟩

private theorem handlerStep_rank (taken : handlerStep p = some q) :
    q.handler.rank < p.handler.rank := by
  unfold handlerStep at taken
  cases here : p.handler with
  | waiting | done => simp only [here, reduceCtorEq] at taken
  | draining | reading | stopping found | releasing =>
      simp only [here, Option.some.injEq] at taken
      subst taken
      simp [Handler.rank]

private theorem next_rank (same : label.boots = false) (taken : next d path p label = some q) :
    (if label.works then 1 else 0) + q.rank ≤ p.rank := by
  rcases next_cases taken with ⟨fresh, rfl, -⟩ | ⟨-, -, taken⟩
  · exact absurd same nofun
  cases label with
  | main world =>
      obtain ⟨fewer, handler⟩ := mainStep_rank taken
      show 1 + (q.main.rank + q.handler.rank) ≤ p.main.rank + p.handler.rank
      rw [handler]
      omega
  | handler =>
      have fewer := handlerStep_rank taken
      have main := (handlerStep_frame taken).1
      show 1 + (q.main.rank + q.handler.rank) ≤ p.main.rank + p.handler.rank
      rw [main]
      omega
  | signal =>
      obtain rfl := Option.some.inj taken
      by_cases waits : p.handler = .waiting
      · rw [if_pos waits]
        show 0 + (p.main.rank + 4) ≤ p.main.rank + p.handler.rank
        rw [waits, Nat.zero_add]
        exact Nat.add_le_add_left (by decide) _
      · rw [if_neg waits]
        exact Nat.le_of_eq (Nat.zero_add _)
  | boot fresh => exact absurd same nofun
  | receive | handle | stopLoop | tick | lastTick | copy | write =>
      have control := (background_control rfl taken).1
      simp only [Process.control, Prod.mk.injEq] at control
      show 0 + (q.main.rank + q.handler.rank) ≤ p.main.rank + p.handler.rank
      rw [control.1, control.2.1, Nat.zero_add]

/-- No signal has come, and main has nothing to do before one comes. -/
def Process.Idle (p : Process) : Prop :=
  p.handler = .waiting ∧ (p.main = .await ∨ p.main = .linger)

/-- The only signal that is ever read has been used up, and Run waits. -/
def Process.Deaf (p : Process) : Prop :=
  p.handler = .done ∧ p.main = .await ∧ p.cancelled = false

private theorem mainStep_blocked {world : World} (alive : p.main.gone = false) :
    mainStep path world p = none ↔
      p.main = .await ∧ p.cancelled = false ∨ p.main = .linger ∧ p.released = false := by
  unfold mainStep
  cases here : p.main with
  | exited clean =>
      rw [here] at alive
      exact absurd alive nofun
  | await | linger => simp
  | openQueue | register => simp
  | restore | publish | markRunning | startTicker | closeQueue | clearRunning | closeFailed
  | clearFailed | abandon => simp

private theorem handlerStep_blocked :
    handlerStep p = none ↔ p.handler = .waiting ∨ p.handler = .done := by
  unfold handlerStep
  cases p.handler <;> simp

private theorem stuck_iff (known : Consistent p) (alive : p.main.gone = false) :
    (∀ label, label.works = true → next d path p label = none) ↔ p.Idle ∨ p.Deaf := by
  have both : (∀ label, label.works = true → next d path p label = none) ↔
      (∀ world, mainStep path world p = none) ∧ handlerStep p = none := by
    constructor
    · intro none
      refine ⟨fun world => ?_, ?_⟩
      · simpa [next, alive, stepAlive] using none (.main world) rfl
      · simpa [next, alive, stepAlive] using none .handler rfl
    · rintro ⟨main, handler⟩ label works
      cases label with
      | main world => simpa [next, alive, stepAlive] using main world
      | handler => simpa [next, alive, stepAlive] using handler
      | _ => exact absurd works nofun
  have someWorld : World := ⟨⟨none, none, none, true⟩, .stored, true, true⟩
  rw [both, handlerStep_blocked]
  unfold Process.Idle Process.Deaf
  constructor
  · rintro ⟨main, handler⟩
    rcases (mainStep_blocked alive).mp (main someWorld) with ⟨here, waits⟩ | ⟨here, waits⟩
    · rcases handler with waiting | done
      · exact .inl ⟨waiting, .inl here⟩
      · exact .inr ⟨done, here, waits⟩
    · rcases handler with waiting | done
      · exact .inl ⟨waiting, .inr here⟩
      · rw [known.released.mpr done] at waits
        exact absurd waits nofun
  · rintro (⟨waiting, here⟩ | ⟨done, here, waits⟩)
    · refine ⟨fun world => (mainStep_blocked alive).mpr ?_, .inl waiting⟩
      rcases here with here | here
      · refine .inl ⟨here, Bool.eq_false_iff.mpr fun cancelled => ?_⟩
        have called := known.called cancelled (by rw [here]; rfl)
        rw [waiting] at called
        exact absurd called nofun
      · refine .inr ⟨here, Bool.eq_false_iff.mpr fun released => ?_⟩
        rw [known.released.mp released] at waiting
        exact absurd waiting nofun
    · exact ⟨fun world => (mainStep_blocked alive).mpr (.inl ⟨here, waits⟩), .inr done⟩

end Progress

section Lost

variable {d : Decoder} {path : Pathname} {p q : Process} {label : Label}

/-- No other process takes over, and neither Open nor Register fails. -/
def Label.Smooth : Label → Prop
  | .main world => world.opens = true ∧ world.registers = true
  | .boot _ => False
  | _ => True

/-- Stop has found no cancel function, and nothing else has cancelled the context. -/
structure Lost (p : Process) : Prop where
  missed : p.handler = .stopping false ∨ p.handler.called = true
  waits : p.cancelled = false
  working : p.main.failed = false
  going : p.main.finished = false

private theorem mainStep_lost {world : World} (lost : Lost p) (opens : world.opens = true)
    (registers : world.registers = true) (taken : mainStep path world p = some q) : Lost q := by
  obtain ⟨missed, waits, working, going⟩ := lost
  unfold mainStep at taken
  cases here : p.main with
  | exited clean => simp only [here, reduceCtorEq] at taken
  | await =>
      simp only [here, Option.ite_none_right_eq_some] at taken
      rw [waits] at taken
      exact absurd taken.1 nofun
  | closeQueue | clearRunning | linger | closeFailed | clearFailed | abandon =>
      simp [here, Statement.finished, Statement.failed] at going working
  | openQueue | register =>
      simp only [here, Option.some.injEq, opens, registers, if_true] at taken
      subst taken
      exact ⟨missed, waits, rfl, rfl⟩
  | restore | publish | markRunning | startTicker =>
      simp only [here, Option.some.injEq] at taken
      subst taken
      exact ⟨missed, waits, rfl, rfl⟩

private theorem handlerStep_lost (lost : Lost p) (taken : handlerStep p = some q) : Lost q := by
  obtain ⟨missed, waits, working, going⟩ := lost
  unfold handlerStep at taken
  cases here : p.handler with
  | waiting | draining | reading | done => simp [here, Handler.called] at missed taken
  | stopping found =>
      simp only [here, Handler.called, or_false, Handler.stopping.injEq, reduceCtorEq] at missed
      simp only [here, missed, Bool.or_false, Option.some.injEq] at taken
      subst taken
      exact ⟨.inr rfl, waits, working, going⟩
  | releasing =>
      simp only [here, Option.some.injEq] at taken
      subst taken
      exact ⟨.inr rfl, waits, working, going⟩

private theorem next_lost (lost : Lost p) (smooth : label.Smooth)
    (taken : next d path p label = some q) :
    Lost q := by
  rcases next_cases taken with ⟨fresh, rfl, -⟩ | ⟨-, -, taken⟩
  · exact smooth.elim
  cases label with
  | main world => exact mainStep_lost lost smooth.1 smooth.2 taken
  | handler => exact handlerStep_lost lost taken
  | signal =>
      have unread : p.handler ≠ .waiting := by
        intro waiting
        rcases lost.missed with missed | missed <;> rw [waiting] at missed <;>
          exact absurd missed nofun
      simp only [stepAlive, if_neg unread, Option.some.injEq] at taken
      exact taken ▸ lost
  | boot fresh => exact smooth.elim
  | receive | handle | stopLoop | tick | lastTick | copy | write =>
      have control := (background_control rfl taken).1
      simp only [Process.control, Prod.mk.injEq] at control
      obtain ⟨main, handler, -, cancelled, -⟩ := control
      exact ⟨handler ▸ lost.missed, cancelled ▸ lost.waits, main ▸ lost.working,
        main ▸ lost.going⟩

end Lost

section Silent

variable {d : Decoder} {path : Pathname} {p q : Process} {label : Label}

def Process.handled (p : Process) :
    List (UInt32 × Verdict) × Int × Int × Int × FMap Text Int × List BlockLogEntry :=
  (p.queue.verdicts, p.queue.engine.packetsProcessed, p.queue.engine.packetsAllowed,
    p.queue.engine.packetsBlocked, p.queue.engine.blockStats, p.queue.engine.recentBlocks)

private theorem stepAlive_silent (known : Consistent p) (dead : p.loop = .ended)
    (taken : stepAlive d path p label = some q) : q.loop = .ended ∧ q.handled = p.handled := by
  have past : p.main.registered = true := known.loop (by rw [dead]; exact nofun)
  cases label with
  | main world =>
      obtain ⟨-, queue, loop, -⟩ := mainStep_frame taken
      have born : p.main ≠ .restore := fun here => by
        rw [here] at past
        exact absurd past nofun
      have started : p.main ≠ .register := fun here => by
        rw [here] at past
        exact absurd past nofun
      refine ⟨(loop started).trans dead, ?_⟩
      rw [Process.handled, queue born]
      rfl
  | handler =>
      obtain ⟨-, -, queue, loop, -⟩ := handlerStep_frame taken
      refine ⟨loop.trans dead, ?_⟩
      rw [Process.handled, queue]
      rfl
  | signal =>
      obtain rfl := Option.some.inj taken
      split <;> exact ⟨dead, rfl⟩
  | receive | handle | stopLoop => simp [stepAlive, dead] at taken
  | tick | lastTick | copy | write =>
      simp only [stepAlive] at taken
      split at taken
      · obtain rfl := Option.some.inj taken
        exact ⟨dead, rfl⟩
      · exact absurd taken nofun
  | boot fresh => exact absurd taken nofun

end Silent

def willing : World := ⟨Restart.readable, .stored, true, true⟩

/-- The statements of main up to the wait of `Run`, when every call succeeds. -/
def start : List Label := List.replicate 6 (.main willing)

section Results

variable (d : Decoder) (path : Pathname)

/-- Main and the signal handler have at most fourteen steps in the life of a process and never
block each other: they stand still where no signal has come or where one was lost. When main
is gone, the queue is given back, the flag is down and the context done; the exit is clean only
after the handler's call of Stop. -/
theorem shutdown_progress (p : Process) (reached : (firewall d path).Reachable Machine.any p)
    (labels : List Label) (same : ∀ label ∈ labels, label.boots = false) (q : Process)
    (ran : (firewall d path).run p labels = some q) :
    labels.countP Label.works ≤ 14 ∧
      (q.main.gone = false →
        ((∀ label, label.works = true → next d path q label = none) ↔ q.Idle ∨ q.Deaf)) ∧
      ∀ clean, q.main = .exited clean →
        q.running = false ∧ q.socket ≠ .opened ∧ q.cancelled = true ∧
          if clean then q.handler.called = true else q.handler = .done := by
  have known : Consistent q := reachable_consistent (reached.of_run labels ran)
  have bounded := Machine.run_bounded (m := firewall d path) Process.rank Label.works
    (fun label => label.boots = false) (fun _ _ _ same taken => next_rank same taken) labels same
    ran
  have total := rank_le p
  refine ⟨by omega, stuck_iff known, fun clean here => ?_⟩
  have cancelled : q.cancelled = true := known.finished (by rw [here]; rfl)
  refine ⟨by rw [known.running, here]; rfl, fun opened => ?_, cancelled, ?_⟩
  · have held := known.socket.mp opened
    rw [here] at held
    exact absurd held nofun
  · cases clean with
    | true => exact known.called cancelled (by rw [here]; rfl)
    | false => exact known.released.mp (known.left here)

/-- A life that ends by a signal: the queue is opened, Stop is called, `Run` returns. -/
def wholeLife : List Label :=
  start ++ .signal :: List.replicate 4 .handler ++ List.replicate 3 (.main willing)

theorem wholeLife_exits : ∃ q,
    (firewall Packet.Parser.fixedFields []).run (boot ∅ Quiet.freshEngine) wholeLife = some q ∧
      q.main = .exited true ∧ wholeLife.countP Label.works = 13 ∧ q.running = false ∧
      q.handler.called = true := by
  have ends : ((firewall Packet.Parser.fixedFields []).run (boot ∅ Quiet.freshEngine)
      wholeLife).map Process.main = some (.exited true) := by decide +kernel
  obtain ⟨q, ran, here⟩ := Option.map_eq_some_iff.mp ends
  have final := (shutdown_progress Packet.Parser.fixedFields [] _
    (.init ⟨∅, Quiet.freshEngine, rfl⟩) wholeLife (by decide) q ran).2.2 true here
  exact ⟨q, ran, here, by decide, final.1, final.2.2.2⟩

/-- A call of Stop that came before `setLifecycle` is lost for good: as long as the queue can be
opened, no later signal and nothing else ends the process. -/
theorem early_stop_is_lost (p : Process) (reached : (firewall d path).Reachable Machine.any p)
    (missed : p.handler = .stopping false) (working : p.main.failed = false)
    (labels : List Label) (smooth : ∀ label ∈ labels, label.Smooth) (q : Process)
    (ran : (firewall d path).run p labels = some q) :
    q.main.gone = false ∧ q.cancelled = false ∧
      (q.main.registered = true → q.running = true ∧ q.socket = .opened) := by
  have known : Consistent p := reachable_consistent reached
  have waits : p.cancelled = false := Bool.eq_false_iff.mpr fun cancelled => by
    have called := known.called cancelled working
    rw [missed] at called
    exact absurd called nofun
  have lost : Lost q := Machine.run_invariant (m := firewall d path) Lost Label.Smooth
    (fun _ _ _ lost smooth taken => next_lost lost smooth taken)
    ⟨.inl missed, waits, working, known.going waits⟩ labels smooth ran
  have after : Consistent q := reachable_consistent (reached.of_run labels ran)
  refine ⟨?_, lost.waits, after.serving lost.waits⟩
  have stays := lost.going
  cases here : q.main <;> simp_all [Statement.gone, Statement.finished]

/-- A signal before the first statement of `Run`, and the handler up to its call. -/
def earlySignal : List Label := [.signal, .handler, .handler]

theorem earlySignal_lost : ∃ p q,
    (firewall Packet.Parser.fixedFields []).run (boot ∅ Quiet.freshEngine) earlySignal = some p ∧
      (firewall Packet.Parser.fixedFields []).run p start = some q ∧ q.main = .await ∧
      q.cancelled = false ∧ q.running = true := by
  have early : ((firewall Packet.Parser.fixedFields []).run (boot ∅ Quiet.freshEngine)
      earlySignal).map (fun p => (p.handler, p.main,
        ((firewall Packet.Parser.fixedFields []).run p start).map Process.main)) =
      some (.stopping false, .restore, some .await) := by decide +kernel
  obtain ⟨p, ran, stage⟩ := Option.map_eq_some_iff.mp early
  simp only [Prod.mk.injEq] at stage
  obtain ⟨missed, first, later⟩ := stage
  obtain ⟨q, further, here⟩ := Option.map_eq_some_iff.mp later
  obtain ⟨-, waits, serving⟩ := early_stop_is_lost Packet.Parser.fixedFields [] p
    (.of_run (.init ⟨∅, Quiet.freshEngine, rfl⟩) earlySignal ran) missed (by rw [first]; rfl)
    start (by simp [start, Label.Smooth, willing]) q further
  exact ⟨p, q, ran, further, here, waits, (serving (by rw [here]; rfl)).1⟩

/-- A receive loop that has ended is not noticed: until somebody calls Stop the engine says that
it runs and holds the queue, and no packet is handled any more. -/
theorem dead_loop_unnoticed (p : Process) (reached : (firewall d path).Reachable Machine.any p)
    (dead : p.loop = .ended) (labels : List Label)
    (same : ∀ label ∈ labels, label.boots = false) (q : Process)
    (ran : (firewall d path).run p labels = some q) :
    q.loop = .ended ∧ q.handled = p.handled ∧
      (q.cancelled = false → q.running = true ∧ q.socket = .opened) := by
  have kept := Machine.run_invariant (m := firewall d path)
    (fun s => Consistent s ∧ s.loop = .ended ∧ s.handled = p.handled)
    (fun label => label.boots = false)
    (fun s label t ⟨known, dead, handled⟩ same taken => by
      rcases next_cases taken with ⟨fresh, rfl, -⟩ | ⟨-, -, taken⟩
      · exact absurd same nofun
      · obtain ⟨still, unchanged⟩ := stepAlive_silent known dead taken
        exact ⟨stepAlive_consistent known taken, still, unchanged.trans handled⟩)
    ⟨reachable_consistent reached, dead, rfl⟩ labels same ran
  obtain ⟨known, dead, handled⟩ := kept
  refine ⟨dead, handled, fun waits => ?_⟩
  exact known.serving waits (known.loop (by rw [dead]; exact nofun))

theorem stoppedLoop_unnoticed : ∃ p q,
    (firewall Packet.Parser.fixedFields []).run (boot ∅ Quiet.freshEngine)
        (start ++ [.stopLoop]) = some p ∧
      (firewall Packet.Parser.fixedFields []).run p [.signal, .handler] = some q ∧
      q.loop = .ended ∧ q.running = true ∧ q.socket = .opened := by
  have stopped : ((firewall Packet.Parser.fixedFields []).run (boot ∅ Quiet.freshEngine)
      (start ++ [.stopLoop])).map (fun p => (p.loop,
        ((firewall Packet.Parser.fixedFields []).run p [.signal, .handler]).map
          Process.cancelled)) = some (.ended, some false) := by decide +kernel
  obtain ⟨p, ran, stage⟩ := Option.map_eq_some_iff.mp stopped
  simp only [Prod.mk.injEq] at stage
  obtain ⟨dead, later⟩ := stage
  obtain ⟨q, further, waits⟩ := Option.map_eq_some_iff.mp later
  obtain ⟨still, -, serving⟩ := dead_loop_unnoticed Packet.Parser.fixedFields [] p
    (.of_run (.init ⟨∅, Quiet.freshEngine, rfl⟩) (start ++ [.stopLoop]) ran) dead
    [.signal, .handler] (by decide) q further
  exact ⟨p, q, ran, further, still, serving waits⟩

end Results

end L3Firewall.Pipeline.Lifecycle
