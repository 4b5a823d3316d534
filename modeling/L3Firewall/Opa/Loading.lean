/- Opa/Loading
   source: internal/opa/embed.go
   digest: Concurrent loads of a policy are linearised by their lock; a failed one changes
   nothing. -/

import L3Firewall.Foundation.Runs
import L3Firewall.Opa.Evaluator
import Mathlib.Logic.Function.Basic
import Mathlib.Logic.Relation

set_option autoImplicit false
set_option relaxedAutoImplicit false

namespace L3Firewall.Opa.Loading

open Foundation.Runs
open Evaluator (Text)

universe u v

/-- What a load calls of OPA: a compiler of modules, the check of their package, and the
preparation of the decision query. -/
structure Toolchain (κ : Type u) (ρ : Type v) where
  compileModules : Text → Except String κ
  verifyPolicyPackage : κ → Except String Unit
  prepareForEval : κ → Except String ρ

variable {κ : Type u} {ρ : Type v}

/-- The policy passes all three, and this is its query. -/
def Toolchain.Passes (tc : Toolchain κ ρ) (policy : Text) (query : ρ) : Prop :=
  ∃ compiler, tc.compileModules policy = .ok compiler ∧
    tc.verifyPolicyPackage compiler = .ok () ∧ tc.prepareForEval compiler = .ok query

/-- `prepared` is nil before the first rebuild; `reloadCh` tells whether a signal waits in
the channel. -/
structure EmbeddedEvaluator (κ : Type u) (ρ : Type v) where
  prepared : Option ρ
  compiler : κ
  policy : Text
  reloadCh : Bool

section Sequential

variable (tc : Toolchain κ ρ)

/-- The critical sections of Load, and its notification. -/
def EmbeddedEvaluator.publish (e : EmbeddedEvaluator κ ρ) (policy : Text) (compiler : κ) :
    EmbeddedEvaluator κ ρ :=
  { e with compiler := compiler, policy := policy }

def EmbeddedEvaluator.swap (e : EmbeddedEvaluator κ ρ) (query : ρ) : EmbeddedEvaluator κ ρ :=
  { e with prepared := some query }

def EmbeddedEvaluator.notify (e : EmbeddedEvaluator κ ρ) : EmbeddedEvaluator κ ρ :=
  { e with reloadCh := true }

def emptyPolicy : String := "policy source is empty"

def compilingError (err : String) : String := "compiling Rego: " ++ err

def preparingError (err : String) : String := "preparing rego query: " ++ err

def EmbeddedEvaluator.rebuild (e : EmbeddedEvaluator κ ρ) :
    Option String × EmbeddedEvaluator κ ρ :=
  match tc.prepareForEval e.compiler with
  | .error err => (some (preparingError err), e)
  | .ok query => (none, e.swap query)

def NewEmbedded (policy : Text) : Except String (EmbeddedEvaluator κ ρ) :=
  if policy = [] then .error "Rego policy is required"
  else
    match tc.compileModules policy with
    | .error err => .error (compilingError err)
    | .ok compiler =>
        match tc.verifyPolicyPackage compiler with
        | .error err => .error err
        | .ok () =>
            match (⟨none, compiler, policy, false⟩ : EmbeddedEvaluator κ ρ).rebuild tc with
            | (some err, _) => .error err
            | (none, e) => .ok e

/-- A load that no other call comes between. The error is `none` for nil. -/
def EmbeddedEvaluator.Load (e : EmbeddedEvaluator κ ρ) (policy : Text) :
    Option String × EmbeddedEvaluator κ ρ :=
  if policy = [] then (some emptyPolicy, e)
  else
    match tc.compileModules policy with
    | .error err => (some (compilingError err), e)
    | .ok compiler =>
        match tc.verifyPolicyPackage compiler with
        | .error err => (some err, e)
        | .ok () =>
            match (e.publish policy compiler).rebuild tc with
            | (some err, e) => (some err, e)
            | (none, e) => (none, e.notify)

theorem newEmbedded_passes {policy : Text} {e : EmbeddedEvaluator κ ρ}
    (made : NewEmbedded tc policy = .ok e) :
    policy ≠ [] ∧ e.policy = policy ∧
      ∃ query, e.prepared = some query ∧ tc.Passes policy query := by
  unfold NewEmbedded EmbeddedEvaluator.rebuild at made
  split at made
  · exact absurd made nofun
  · next given =>
    split at made
    · exact absurd made nofun
    · next compiler compiled =>
      split at made
      · exact absurd made nofun
      · next verified =>
        cases prepared : tc.prepareForEval compiler with
        | error err =>
            rw [prepared] at made
            exact absurd made nofun
        | ok query =>
            rw [prepared] at made
            obtain rfl := Except.ok.inj made
            exact ⟨given, rfl, query, rfl, compiler, compiled, verified, prepared⟩

theorem load_passes {policy : Text} {query : ρ} (given : policy ≠ [])
    (passes : tc.Passes policy query) (e : EmbeddedEvaluator κ ρ) :
    (e.Load tc policy).1 = none ∧ (e.Load tc policy).2.prepared = some query ∧
      (e.Load tc policy).2.policy = policy := by
  obtain ⟨compiler, compiled, verified, prepared⟩ := passes
  have rebuilt : (e.publish policy compiler).rebuild tc =
      (none, (e.publish policy compiler).swap query) := by
    unfold EmbeddedEvaluator.rebuild
    rw [show (e.publish policy compiler).compiler = compiler from rfl, prepared]
  unfold EmbeddedEvaluator.Load
  rw [if_neg given, compiled]
  dsimp only
  rw [verified]
  dsimp only
  rw [rebuilt]
  exact ⟨rfl, rfl, rfl⟩

end Sequential

section Concurrent

abbrev ThreadID := Nat

/-- Where a thread stands between two steps. From `compiling` to `unlocking` it holds the
lock of the loads. `running` has read the prepared query and evaluates it. -/
inductive Place (κ : Type u) (ρ : Type v)
  | idle
  | called (policy : Text)
  | waiting (policy : Text)
  | compiling (policy : Text)
  | verifying (policy : Text) (compiler : κ)
  | publishing (policy : Text) (compiler : κ)
  | rebuilding (policy : Text)
  | preparing (policy : Text) (compiler : κ)
  | swapping (policy : Text) (query : ρ)
  | notifying (policy : Text)
  | unlocking (policy : Text) (err : Option String)
  | evaluating
  | running (prepared : Option ρ)

/-- `returned` lists the loads that held the lock, in that order, with what they returned.
`atLock` is the prepared query of the moment when the lock was last taken. -/
structure State (κ : Type u) (ρ : Type v) where
  evaluator : EmbeddedEvaluator κ ρ
  loadMu : Option ThreadID
  place : ThreadID → Place κ ρ
  returned : List (Text × Option String)
  atLock : Option ρ

inductive Act
  | load (policy : Text)
  | evaluate
  | proceed

def State.move (s : State κ ρ) (tid : ThreadID) (place : Place κ ρ) : State κ ρ :=
  { s with place := Function.update s.place tid place }

variable (tc : Toolchain κ ρ)

/-- The next step of a thread inside a call. Each step is at most one critical section of
`mu`, which makes it atomic; a thread that waits for `loadMu` may be blocked. -/
def State.proceed (s : State κ ρ) (tid : ThreadID) : Option (State κ ρ) :=
  match s.place tid with
  | .idle => none
  | .called policy =>
      if policy = [] then some (s.move tid .idle) else some (s.move tid (.waiting policy))
  | .waiting policy =>
      if s.loadMu = none then
        some { s.move tid (.compiling policy) with
          loadMu := some tid
          atLock := s.evaluator.prepared }
      else none
  | .compiling policy =>
      match tc.compileModules policy with
      | .error err => some (s.move tid (.unlocking policy (some (compilingError err))))
      | .ok compiler => some (s.move tid (.verifying policy compiler))
  | .verifying policy compiler =>
      match tc.verifyPolicyPackage compiler with
      | .error err => some (s.move tid (.unlocking policy (some err)))
      | .ok () => some (s.move tid (.publishing policy compiler))
  | .publishing policy compiler =>
      some { s.move tid (.rebuilding policy) with evaluator := s.evaluator.publish policy compiler }
  | .rebuilding policy => some (s.move tid (.preparing policy s.evaluator.compiler))
  | .preparing policy compiler =>
      match tc.prepareForEval compiler with
      | .error err => some (s.move tid (.unlocking policy (some (preparingError err))))
      | .ok query => some (s.move tid (.swapping policy query))
  | .swapping policy query =>
      some { s.move tid (.notifying policy) with evaluator := s.evaluator.swap query }
  | .notifying policy =>
      some { s.move tid (.unlocking policy none) with evaluator := s.evaluator.notify }
  | .unlocking policy err =>
      some { s.move tid .idle with loadMu := none, returned := s.returned ++ [(policy, err)] }
  | .evaluating => some (s.move tid (.running s.evaluator.prepared))
  | .running _ => some (s.move tid .idle)

def State.call (s : State κ ρ) (tid : ThreadID) (entry : Place κ ρ) : Option (State κ ρ) :=
  match s.place tid with
  | .idle => some (s.move tid entry)
  | _ => none

def next (s : State κ ρ) : ThreadID × Act → Option (State κ ρ)
  | (tid, .load policy) => s.call tid (.called policy)
  | (tid, .evaluate) => s.call tid .evaluating
  | (tid, .proceed) => s.proceed tc tid

/-- Threads start once the evaluator has been made from its first policy. -/
def loading (first : Text) : Machine (State κ ρ) (ThreadID × Act) where
  init s := NewEmbedded tc first = .ok s.evaluator ∧ s.loadMu = none ∧
    (∀ tid, s.place tid = .idle) ∧ s.returned = []
  next := next tc

/-- The policy of the last load that returned nil, or the first policy. -/
def lastLoaded (first : Text) (returned : List (Text × Option String)) : Text :=
  returned.foldl (fun policy r => if r.2 = none then r.1 else policy) first

def Place.loads : Place κ ρ → Prop
  | .idle | .evaluating | .running _ => False
  | _ => True

def Place.holds : Place κ ρ → Prop
  | .idle | .called _ | .waiting _ | .evaluating | .running _ => False
  | _ => True

variable (first : Text)

/-- The last load that returned nil governs. -/
def Governed (s : State κ ρ) : Prop :=
  ∃ query, s.evaluator.prepared = some query ∧ tc.Passes (lastLoaded first s.returned) query

/-- The holder of the lock has changed nothing that governs. -/
def Kept (s : State κ ρ) : Prop := s.evaluator.prepared = s.atLock ∧ Governed tc first s

/-- The holder of the lock has put its own query in place. -/
def Swapped (s : State κ ρ) (policy : Text) : Prop :=
  ∃ query, s.evaluator.prepared = some query ∧ tc.Passes policy query

def Facts (s : State κ ρ) : Place κ ρ → Prop
  | .idle | .called _ | .waiting _ | .evaluating => True
  | .compiling _ => Kept tc first s
  | .verifying policy compiler => Kept tc first s ∧ tc.compileModules policy = .ok compiler
  | .publishing policy compiler | .preparing policy compiler =>
      Kept tc first s ∧ tc.compileModules policy = .ok compiler ∧
        tc.verifyPolicyPackage compiler = .ok ()
  | .rebuilding policy =>
      Kept tc first s ∧ tc.compileModules policy = .ok s.evaluator.compiler ∧
        tc.verifyPolicyPackage s.evaluator.compiler = .ok ()
  | .swapping policy query => Kept tc first s ∧ tc.Passes policy query
  | .notifying policy | .unlocking policy none => Swapped tc s policy
  | .unlocking _ (some _) => Kept tc first s
  | .running prepared => ∃ policy query, prepared = some query ∧ tc.Passes policy query

structure Linear (s : State κ ρ) : Prop where
  holder : ∀ tid, (s.place tid).holds ↔ s.loadMu = some tid
  facts : ∀ tid, Facts tc first s (s.place tid)
  free : s.loadMu = none → Governed tc first s
  passed : ∃ policy, Swapped tc s policy

variable {tc first} {s s' : State κ ρ} {tid : ThreadID} {place : Place κ ρ}

private theorem facts_outside (outside : ¬ place.holds) (known : Facts tc first s place) :
    Facts tc first s' place := by
  cases place with
  | idle | called | waiting | evaluating => trivial
  | running => exact known
  | compiling | verifying | publishing | rebuilding | preparing | swapping | notifying
    | unlocking => exact absurd trivial outside

private theorem move_place (s : State κ ρ) (tid other : ThreadID) (place : Place κ ρ) :
    (s.move tid place).place other = if other = tid then place else s.place other :=
  Function.update_apply s.place tid place other

private theorem Linear.unique (linear : Linear tc first s) {other : ThreadID}
    (held : (s.place other).holds) (locked : s.loadMu = some tid) : other = tid :=
  Option.some.inj (((linear.holder other).mp held).symm.trans locked)

private theorem Linear.knows (linear : Linear tc first s) (stands : s.place tid = place) :
    Facts tc first s place := by
  rw [← stands]
  exact linear.facts tid

private theorem Linear.locked (linear : Linear tc first s) (stands : s.place tid = place)
    (held : place.holds) : s.loadMu = some tid := by
  refine (linear.holder tid).mp ?_
  rw [stands]
  exact held

variable {old : Place κ ρ}

private theorem Linear.outside (linear : Linear tc first s) (stands : s.place tid = old)
    (before : ¬ old.holds) (after : ¬ place.holds) (known : Facts tc first s place) :
    Linear tc first (s.move tid place) := by
  refine ⟨fun other => ?_, fun other => ?_, linear.free, linear.passed⟩
  · rw [move_place]
    split
    · next same =>
      subst same
      refine ⟨fun held => absurd held after, fun held => absurd ?_ before⟩
      rw [← stands]
      exact (linear.holder other).mpr held
    · exact linear.holder other
  · rw [move_place]
    split
    · exact facts_outside after known
    · exact linear.facts other

private theorem Linear.inside (linear : Linear tc first s) (stands : s.place tid = old)
    (before : old.holds) (after : place.holds) {e : EmbeddedEvaluator κ ρ}
    (known : Facts tc first { s.move tid place with evaluator := e } place)
    (passed : ∃ policy, Swapped tc { s.move tid place with evaluator := e } policy) :
    Linear tc first { s.move tid place with evaluator := e } := by
  have locked := linear.locked stands before
  refine ⟨fun other => ?_, fun other => ?_, fun free => ?_, passed⟩
  · change ((s.move tid place).place other).holds ↔ s.loadMu = some other
    rw [move_place]
    split
    · next same =>
      subst same
      exact ⟨fun _ => locked, fun _ => after⟩
    · exact linear.holder other
  · change Facts tc first _ ((s.move tid place).place other)
    rw [move_place]
    split
    · exact known
    · next different =>
      exact facts_outside (fun held => different (linear.unique held locked)) (linear.facts other)
  · exact absurd (locked.symm.trans free) nofun

private theorem Linear.acquire (linear : Linear tc first s) (free : s.loadMu = none)
    (policy : Text) :
    Linear tc first { s.move tid (.compiling policy) with
      loadMu := some tid
      atLock := s.evaluator.prepared } := by
  have before (other : ThreadID) : ¬ (s.place other).holds := fun held =>
    absurd (free.symm.trans ((linear.holder other).mp held)) nofun
  refine ⟨fun other => ?_, fun other => ?_, nofun, linear.passed⟩
  · change ((s.move tid _).place other).holds ↔ some tid = some other
    rw [move_place]
    split
    · next same => exact ⟨fun _ => congrArg some same.symm, fun _ => trivial⟩
    · next different =>
      exact ⟨fun held => absurd held (before other), fun same =>
        absurd (Option.some.inj same).symm different⟩
  · change Facts tc first _ ((s.move tid _).place other)
    rw [move_place]
    split
    · exact ⟨rfl, linear.free free⟩
    · exact facts_outside (before other) (linear.facts other)

private theorem Linear.release (linear : Linear tc first s) {policy : Text} {err : Option String}
    (stands : s.place tid = .unlocking policy err) :
    Linear tc first { s.move tid .idle with
      loadMu := none
      returned := s.returned ++ [(policy, err)] } := by
  have locked := linear.locked stands trivial
  refine ⟨fun other => ?_, fun other => ?_, fun _ => ?_, linear.passed⟩
  · change ((s.move tid _).place other).holds ↔ none = some other
    rw [move_place]
    split
    · exact ⟨False.elim, nofun⟩
    · next different =>
      exact ⟨fun held => absurd (linear.unique held locked) different, nofun⟩
  · change Facts tc first _ ((s.move tid _).place other)
    rw [move_place]
    split
    · trivial
    · next different =>
      exact facts_outside (fun held => different (linear.unique held locked)) (linear.facts other)
  · change ∃ query, s.evaluator.prepared = some query ∧
      tc.Passes (lastLoaded first (s.returned ++ [(policy, err)])) query
    have known := linear.knows stands
    rw [lastLoaded, List.foldl_append]
    cases err with
    | none => exact known
    | some text => exact known.2

private theorem Linear.called (linear : Linear tc first s) {entry : Place κ ρ}
    (entering : entry = .evaluating ∨ ∃ policy, entry = .called policy)
    (taken : s.call tid entry = some s') : Linear tc first s' := by
  unfold State.call at taken
  split at taken
  · next idle =>
    obtain rfl := Option.some.inj taken
    rcases entering with rfl | ⟨policy, rfl⟩
    · exact linear.outside idle id id trivial
    · exact linear.outside idle id id trivial
  · exact absurd taken nofun

private theorem Linear.proceeds (linear : Linear tc first s) (taken : s.proceed tc tid = some s') :
    Linear tc first s' := by
  unfold State.proceed at taken
  split at taken
  · exact absurd taken nofun
  · next policy stands =>
    split at taken <;> obtain rfl := Option.some.inj taken
    · exact linear.outside stands id id trivial
    · exact linear.outside stands id id trivial
  · next policy stands =>
    obtain ⟨free, taken⟩ := Option.ite_none_right_eq_some.mp taken
    obtain rfl := Option.some.inj taken
    exact linear.acquire free policy
  · next policy stands =>
    have known := linear.knows stands
    split at taken <;> obtain rfl := Option.some.inj taken
    · exact linear.inside stands trivial (by trivial) known linear.passed
    · next compiler compiled =>
      exact linear.inside stands trivial (by trivial) ⟨known, compiled⟩ linear.passed
  · next policy compiler stands =>
    have known := linear.knows stands
    split at taken <;> obtain rfl := Option.some.inj taken
    · exact linear.inside stands trivial (by trivial) known.1 linear.passed
    · next verified =>
      exact linear.inside stands trivial (by trivial) ⟨known.1, known.2, verified⟩ linear.passed
  · next policy compiler stands =>
    obtain rfl := Option.some.inj taken
    exact linear.inside stands trivial (by trivial) (linear.knows stands) linear.passed
  · next policy stands =>
    -- The compiler that rebuild reads is the one this load has published.
    obtain rfl := Option.some.inj taken
    exact linear.inside stands trivial (by trivial) (linear.knows stands) linear.passed
  · next policy compiler stands =>
    obtain ⟨kept, compiled, verified⟩ := linear.knows stands
    split at taken <;> obtain rfl := Option.some.inj taken
    · exact linear.inside stands trivial (by trivial) kept linear.passed
    · next query prepared =>
      exact linear.inside stands trivial (by trivial) ⟨kept, compiler, compiled, verified, prepared⟩
        linear.passed
  · next policy query stands =>
    obtain ⟨-, passes⟩ := linear.knows stands
    obtain rfl := Option.some.inj taken
    exact linear.inside stands trivial (by trivial) ⟨query, rfl, passes⟩
      ⟨policy, query, rfl, passes⟩
  · next policy stands =>
    obtain rfl := Option.some.inj taken
    exact linear.inside stands trivial (by trivial) (linear.knows stands) linear.passed
  · next policy err stands =>
    obtain rfl := Option.some.inj taken
    exact linear.release stands
  · next stands =>
    obtain rfl := Option.some.inj taken
    obtain ⟨policy, query, prepared, passes⟩ := linear.passed
    exact linear.outside stands id id ⟨policy, query, prepared, passes⟩
  · next prepared stands =>
    obtain rfl := Option.some.inj taken
    exact linear.outside stands id id trivial

private theorem loading_linear (reached : (loading tc first).Reachable Machine.any s) :
    Linear tc first s := by
  refine Machine.Reachable.invariant (Linear tc first) ?_ ?_ reached
  · rintro s ⟨made, free, idle, returned⟩
    obtain ⟨-, -, query, prepared, passes⟩ := newEmbedded_passes tc made
    have governed : Governed tc first s := by
      refine ⟨query, prepared, ?_⟩
      rw [returned]
      exact passes
    refine ⟨fun tid => ?_, fun tid => ?_, fun _ => governed, first, query, prepared, passes⟩
    · rw [idle, free]
      exact ⟨False.elim, nofun⟩
    · rw [idle]
      trivial
  · rintro s ⟨tid, act⟩ s' - linear - taken
    cases act with
    | load policy => exact linear.called (.inr ⟨policy, rfl⟩) taken
    | evaluate => exact linear.called (.inl rfl) taken
    | proceed => exact linear.proceeds taken

private theorem proceed_prepared (taken : s.proceed tc tid = some s') :
    s'.evaluator.prepared = s.evaluator.prepared ∨ ∃ policy, s'.place tid = .notifying policy := by
  unfold State.proceed at taken
  split at taken
  · exact absurd taken nofun
  · split at taken <;> obtain rfl := Option.some.inj taken <;> exact .inl rfl
  · obtain ⟨-, taken⟩ := Option.ite_none_right_eq_some.mp taken
    obtain rfl := Option.some.inj taken
    exact .inl rfl
  · split at taken <;> obtain rfl := Option.some.inj taken <;> exact .inl rfl
  · split at taken <;> obtain rfl := Option.some.inj taken <;> exact .inl rfl
  · obtain rfl := Option.some.inj taken
    exact .inl rfl
  · obtain rfl := Option.some.inj taken
    exact .inl rfl
  · split at taken <;> obtain rfl := Option.some.inj taken <;> exact .inl rfl
  · next policy query place =>
    obtain rfl := Option.some.inj taken
    exact .inr ⟨policy, Function.update_self tid _ _⟩
  all_goals
    obtain rfl := Option.some.inj taken
    exact .inl rfl

abbrev Proceeds (tc : Toolchain κ ρ) (tid : ThreadID) : State κ ρ → State κ ρ → Prop :=
  Relation.ReflTransGen fun s s' => s.proceed tc tid = some s'

private theorem move_self (s : State κ ρ) (tid : ThreadID) (place : Place κ ρ) :
    (s.move tid place).place tid = place := by
  rw [move_place, if_pos rfl]

private theorem move_move (s : State κ ρ) (tid : ThreadID) (a b : Place κ ρ) :
    (s.move tid a).move tid b = s.move tid b := by
  simp only [State.move, Function.update_idem]

/-- Left alone, the thread ends its call having done what the sequential Load does in `s`. -/
def Completes (tc : Toolchain κ ρ) (tid : ThreadID) (policy : Text) (s start : State κ ρ) : Prop :=
  ∃ s', Proceeds tc tid start s' ∧ s'.place tid = .idle ∧ s'.loadMu = none ∧
    s'.evaluator = (s.evaluator.Load tc policy).2 ∧
    s'.returned = s.returned ++ [(policy, (s.evaluator.Load tc policy).1)]

private theorem completes_of_unlocking {policy : Text} {start : State κ ρ}
    (e : EmbeddedEvaluator κ ρ)
    (err : Option String) (loaded : s.evaluator.Load tc policy = (err, e))
    (steps : Proceeds tc tid start ({ s with evaluator := e }.move tid (.unlocking policy err))) :
    Completes tc tid policy s start := by
  refine ⟨_, steps.tail (c := { ({ s with evaluator := e } : State κ ρ).move tid .idle with
    loadMu := none, returned := s.returned ++ [(policy, err)] }) ?_, move_self _ _ _, rfl, ?_, ?_⟩
  · simp only [State.proceed, move_self, move_move]
    rfl
  · rw [loaded]
    rfl
  · rw [loaded]

private theorem published_alone (tc : Toolchain κ ρ) (policy : Text) (compiler : κ) (s : State κ ρ)
    (tid : ThreadID) :
    Proceeds tc tid (s.move tid (.publishing policy compiler))
      (({ s with evaluator := s.evaluator.publish policy compiler } : State κ ρ).move tid
        (.preparing policy compiler)) := by
  refine .tail (.single (b := ({ s with evaluator := s.evaluator.publish policy compiler } :
    State κ ρ).move tid (.rebuilding policy)) ?_) ?_
  · simp only [State.proceed, move_self, move_move]
    rfl
  · simp only [State.proceed, move_self, move_move]
    rfl

private theorem locked_alone (tc : Toolchain κ ρ) (policy : Text) (given : policy ≠ [])
    (s : State κ ρ)
    (tid : ThreadID) : Completes tc tid policy s (s.move tid (.compiling policy)) := by
  cases compiled : tc.compileModules policy with
  | error err =>
      refine completes_of_unlocking s.evaluator (some (compilingError err)) ?_ (.single ?_)
      · simp only [EmbeddedEvaluator.Load, if_neg given, compiled]
      · simp only [State.proceed, move_self, move_move, compiled]
  | ok compiler =>
      have verify : Proceeds tc tid (s.move tid (.compiling policy))
          (s.move tid (.verifying policy compiler)) := .single (by
        simp only [State.proceed, move_self, move_move, compiled])
      cases verified : tc.verifyPolicyPackage compiler with
      | error err =>
          refine completes_of_unlocking s.evaluator (some err) ?_ (verify.tail ?_)
          · simp only [EmbeddedEvaluator.Load, if_neg given, compiled, verified]
          · simp only [State.proceed, move_self, move_move, verified]
      | ok checked =>
          have publish := (verify.tail (c := s.move tid (.publishing policy compiler)) (by
            simp only [State.proceed, move_self, move_move, verified])).trans
              (published_alone tc policy compiler s tid)
          have source : (s.evaluator.publish policy compiler).compiler = compiler := rfl
          cases prepared : tc.prepareForEval compiler with
          | error err =>
              refine completes_of_unlocking (s.evaluator.publish policy compiler)
                (some (preparingError err)) ?_ (publish.tail ?_)
              · simp only [EmbeddedEvaluator.Load, if_neg given, compiled, verified,
                  EmbeddedEvaluator.rebuild, source, prepared]
              · simp only [State.proceed, move_self, move_move, prepared]
          | ok query =>
              have swap := publish.tail (c := ({ s with
                evaluator := s.evaluator.publish policy compiler } : State κ ρ).move tid
                  (.swapping policy query)) (by
                simp only [State.proceed, move_self, move_move, prepared])
              have notify := swap.tail (c := ({ s with
                evaluator := (s.evaluator.publish policy compiler).swap query } : State κ ρ).move
                  tid (.notifying policy)) (by
                simp only [State.proceed, move_self, move_move]
                rfl)
              refine completes_of_unlocking
                ((s.evaluator.publish policy compiler).swap query).notify none ?_
                (notify.tail ?_)
              · simp only [EmbeddedEvaluator.Load, if_neg given, compiled, verified,
                  EmbeddedEvaluator.rebuild, source, prepared]
              · simp only [State.proceed, move_self, move_move]
                rfl

theorem load_alone (policy : Text) (idle : s.place tid = .idle) (free : s.loadMu = none) :
    ∃ entered s', next tc s (tid, .load policy) = some entered ∧ Proceeds tc tid entered s' ∧
      s'.place tid = .idle ∧ s'.loadMu = none ∧ s'.evaluator = (s.evaluator.Load tc policy).2 := by
  have entered : next tc s (tid, .load policy) = some (s.move tid (.called policy)) := by
    simp only [next, State.call, idle]
  by_cases empty : policy = []
  · refine ⟨_, s.move tid .idle, entered, .single ?_, move_self _ _ _, free, ?_⟩
    · simp only [State.proceed, move_self, move_move, if_pos empty]
    · simp only [EmbeddedEvaluator.Load, if_pos empty]
      rfl
  · obtain ⟨s', steps, place, unlocked, loaded, -⟩ := locked_alone tc policy empty
      { s with loadMu := some tid, atLock := s.evaluator.prepared } tid
    refine ⟨_, s', entered, .head (b := s.move tid (.waiting policy)) ?_ (.head ?_ steps), place,
      unlocked, loaded⟩
    · simp only [State.proceed, move_self, move_move, if_neg empty]
    · simp only [State.proceed, move_self, move_move]
      exact if_pos free

end Concurrent

/-- Loads and evaluations in any interleaving. An evaluation runs the query of a policy
that passed; while no load is under way the prepared query is that of the last load, in
the order of the lock, that returned nil; and a load that holds the lock leaves the query
in place that it found, unless it has swapped in its own and is past every failure. No
other step touches the query. -/
theorem loads_linearized {κ : Type u} {ρ : Type v} (tc : Toolchain κ ρ) (first : Text)
    (s : State κ ρ) (reached : (loading tc first).Reachable Machine.any s) :
    (∀ tid prepared, s.place tid = .running prepared →
      ∃ policy query, prepared = some query ∧ tc.Passes policy query) ∧
    ((∀ tid, ¬ (s.place tid).loads) → ∃ query, s.evaluator.prepared = some query ∧
      tc.Passes (lastLoaded first s.returned) query) ∧
    (∀ tid, s.loadMu = some tid → s.evaluator.prepared = s.atLock ∨
      ∃ policy, s.place tid = .notifying policy ∨ s.place tid = .unlocking policy none) ∧
    (∀ tid s', s.proceed tc tid = some s' → s'.evaluator.prepared = s.evaluator.prepared ∨
      ∃ policy, s'.place tid = .notifying policy) := by
  have linear := loading_linear reached
  refine ⟨fun tid prepared running => ?_, fun quiet => ?_, fun tid locked => ?_,
    fun tid s' taken => proceed_prepared taken⟩
  · have known := linear.facts tid
    rw [running] at known
    exact known
  · refine linear.free (Option.eq_none_iff_forall_ne_some.mpr fun tid locked => quiet tid ?_)
    have held := (linear.holder tid).mpr locked
    cases place : s.place tid with
    | idle | called | waiting | evaluating | running =>
        rw [place] at held
        exact held.elim
    | compiling | verifying | publishing | rebuilding | preparing | swapping | notifying
      | unlocking => trivial
  · have held := (linear.holder tid).mpr locked
    have known := linear.facts tid
    cases place : s.place tid with
    | idle | called | waiting | evaluating | running =>
        rw [place] at held
        exact held.elim
    | compiling =>
        rw [place] at known
        exact .inl known.1
    | verifying | publishing | rebuilding | preparing | swapping =>
        rw [place] at known
        exact .inl known.1.1
    | notifying policy => exact .inr ⟨policy, .inl rfl⟩
    | unlocking policy err =>
        cases err with
        | none => exact .inr ⟨policy, .inr rfl⟩
        | some text =>
            rw [place] at known
            exact .inl known.1

section Example

/-- Policies that start with a zero do not compile, and those of more than two bytes cannot
be prepared. -/
def sample : Toolchain Text Nat where
  compileModules policy := if policy.head? = some 0 then .error "unexpected token" else .ok policy
  verifyPolicyPackage _ := .ok ()
  prepareForEval policy := if 2 < policy.length then .error "too long" else .ok policy.length

def sampleStart : State Text Nat :=
  ⟨⟨some 1, [1], [1], false⟩, none, fun _ => .idle, [], none⟩

/-- Thread 1 asks for a policy that fails while thread 0 loads one that does not. -/
def overlapping : List (ThreadID × Act) :=
  [(0, .load [2, 2]), (0, .proceed), (0, .proceed), (1, .load [3, 3, 3]), (1, .proceed)] ++
    List.replicate 8 (0, .proceed) ++ List.replicate 7 (1, .proceed)

theorem overlapping_linearized :
    ∃ s, (loading sample [1]).run sampleStart overlapping = some s ∧
      s.returned = [([2, 2], none), ([3, 3, 3], some "preparing rego query: too long")] ∧
      ∃ query, s.evaluator.prepared = some query ∧ sample.Passes [2, 2] query := by
  refine ⟨_, rfl, rfl, ?_⟩
  have started : (loading sample [1]).Reachable Machine.any sampleStart :=
    .init ⟨rfl, rfl, fun _ => rfl, rfl⟩
  refine (loads_linearized sample [1] _ (started.of_run overlapping rfl)).2.1 fun tid => ?_
  match tid with
  | 0 => exact id
  | 1 => exact id
  | n + 2 => exact id

end Example

end L3Firewall.Opa.Loading
