/- Foundation/Runs
   digest: Labelled machines, runs whose steps meet a condition, invariants and projections. -/

import Mathlib.Logic.Basic

set_option autoImplicit false
set_option relaxedAutoImplicit false

namespace L3Firewall.Foundation.Runs

universe u v w x

/-- Initial states, and what a label does in a state where it is enabled. -/
structure Machine (σ : Type u) (lab : Type v) where
  init : σ → Prop
  next : σ → lab → Option σ

namespace Machine

variable {σ : Type u} {lab : Type v} {τ : Type w} {lab' : Type x}

/-- States reached by a run whose steps all meet a condition, each in the state before it. -/
inductive Reachable (m : Machine σ lab) (ok : σ → lab → Prop) : σ → Prop
  | init {s : σ} (start : m.init s) : Reachable m ok s
  | step {s s' : σ} {a : lab} (before : Reachable m ok s) (meets : ok s a)
      (taken : m.next s a = some s') : Reachable m ok s'

/-- No condition. -/
def any (_ : σ) (_ : lab) : Prop := True

theorem Reachable.invariant {m : Machine σ lab} {ok : σ → lab → Prop} (holds : σ → Prop)
    (base : ∀ s, m.init s → holds s)
    (kept : ∀ s a s', m.Reachable ok s → holds s → ok s a → m.next s a = some s' → holds s')
    {s : σ} (reached : m.Reachable ok s) : holds s := by
  induction reached with
  | init start => exact base _ start
  | step before meets taken ih => exact kept _ _ _ before ih meets taken

theorem Reachable.project {m : Machine σ lab} {ok : σ → lab → Prop} {n : Machine τ lab'}
    {ok' : τ → lab' → Prop} (view : σ → τ) (base : ∀ s, m.init s → n.init (view s))
    (kept : ∀ s a s', ok s a → m.next s a = some s' →
      view s' = view s ∨ ∃ b, ok' (view s) b ∧ n.next (view s) b = some (view s'))
    {s : σ} (reached : m.Reachable ok s) : n.Reachable ok' (view s) := by
  induction reached with
  | init start => exact .init (base _ start)
  | step _ meets taken ih =>
      rcases kept _ _ _ meets taken with same | ⟨b, meets', taken'⟩
      · rw [same]
        exact ih
      · exact .step ih meets' taken'

def run (m : Machine σ lab) : σ → List lab → Option σ
  | s, [] => some s
  | s, a :: rest => (m.next s a).bind fun s' => m.run s' rest

theorem run_append (m : Machine σ lab) (s : σ) (first later : List lab) :
    m.run s (first ++ later) = (m.run s first).bind fun t => m.run t later := by
  induction first generalizing s with
  | nil => rfl
  | cons a rest ih =>
      show (m.next s a).bind _ = ((m.next s a).bind _).bind _
      rw [Option.bind_assoc]
      congr 1
      exact funext ih

theorem Reachable.of_run_meets {m : Machine σ lab} {ok : σ → lab → Prop} {s s' : σ}
    (reached : m.Reachable ok s) (labels : List lab) (meets : ∀ a ∈ labels, ∀ t, ok t a)
    (ran : m.run s labels = some s') : m.Reachable ok s' := by
  induction labels generalizing s with
  | nil =>
      obtain rfl := Option.some.inj ran
      exact reached
  | cons a rest ih =>
      obtain ⟨t, taken, ran⟩ := Option.bind_eq_some_iff.mp ran
      exact ih (.step reached (meets a List.mem_cons_self s) taken)
        (fun b later => meets b (List.mem_cons_of_mem a later)) ran

theorem Reachable.of_run {m : Machine σ lab} {s s' : σ} (reached : m.Reachable any s)
    (labels : List lab) (ran : m.run s labels = some s') : m.Reachable any s' :=
  reached.of_run_meets labels (fun _ _ _ => trivial) ran

theorem run_invariant {m : Machine σ lab} (holds : σ → Prop) (allowed : lab → Prop)
    (kept : ∀ s a s', holds s → allowed a → m.next s a = some s' → holds s') {s s' : σ}
    (start : holds s) (labels : List lab) (all : ∀ a ∈ labels, allowed a)
    (ran : m.run s labels = some s') : holds s' := by
  induction labels generalizing s with
  | nil =>
      obtain rfl := Option.some.inj ran
      exact start
  | cons a rest ih =>
      obtain ⟨t, taken, ran⟩ := Option.bind_eq_some_iff.mp ran
      exact ih (kept s a t start (all a List.mem_cons_self) taken)
        (fun b later => all b (List.mem_cons_of_mem a later)) ran

theorem run_bounded {m : Machine σ lab} (measure : σ → Nat) (counts : lab → Bool)
    (allowed : lab → Prop)
    (lowers : ∀ s a s', allowed a → m.next s a = some s' →
      (if counts a then 1 else 0) + measure s' ≤ measure s) {s s' : σ} (labels : List lab)
    (all : ∀ a ∈ labels, allowed a) (ran : m.run s labels = some s') :
    labels.countP counts + measure s' ≤ measure s := by
  induction labels generalizing s with
  | nil =>
      obtain rfl := Option.some.inj ran
      exact Nat.le_of_eq (Nat.zero_add _)
  | cons a rest ih =>
      obtain ⟨t, taken, ran⟩ := Option.bind_eq_some_iff.mp ran
      have first := lowers s a t (all a List.mem_cons_self) taken
      have later := ih (fun b later => all b (List.mem_cons_of_mem a later)) ran
      rw [List.countP_cons]
      omega

/-- Every step of a run meets a condition, in the state it is taken from. -/
def Along (m : Machine σ lab) (ok : σ → lab → Prop) : σ → List lab → Prop
  | _, [] => True
  | s, a :: rest => ok s a ∧ ∀ s', m.next s a = some s' → m.Along ok s' rest

instance decidableAlong (m : Machine σ lab) (ok : σ → lab → Prop) [∀ s a, Decidable (ok s a)] :
    ∀ s labels, Decidable (m.Along ok s labels)
  | _, [] => .isTrue trivial
  | s, a :: rest =>
      match taken : m.next s a with
      | none => decidable_of_iff (ok s a) ⟨fun now => ⟨now, by simp [taken]⟩, And.left⟩
      | some s' =>
          have := decidableAlong m ok s' rest
          decidable_of_iff (ok s a ∧ m.Along ok s' rest) (by simp [Along, taken])

theorem Along.any (m : Machine σ lab) (s : σ) (labels : List lab) :
    m.Along Machine.any s labels := by
  induction labels generalizing s with
  | nil => exact trivial
  | cons a rest ih => exact ⟨trivial, fun s' _ => ih s'⟩

theorem Along.mono {m : Machine σ lab} {p q : σ → lab → Prop} (implies : ∀ s a, p s a → q s a)
    {s : σ} {labels : List lab} (granted : m.Along p s labels) : m.Along q s labels := by
  induction labels generalizing s with
  | nil => exact trivial
  | cons a rest ih =>
      exact ⟨implies s a granted.1, fun s' taken => ih (granted.2 s' taken)⟩

theorem Reachable.of_along {m : Machine σ lab} {ok : σ → lab → Prop} {s s' : σ}
    (reached : m.Reachable ok s) (labels : List lab) (granted : m.Along ok s labels)
    (ran : m.run s labels = some s') : m.Reachable ok s' := by
  induction labels generalizing s with
  | nil =>
      obtain rfl := Option.some.inj ran
      exact reached
  | cons a rest ih =>
      obtain ⟨t, taken, ran⟩ := Option.bind_eq_some_iff.mp ran
      exact ih (.step reached granted.1 taken) (granted.2 t taken) ran

theorem Along.forall_iff {ι : Type w} {m : Machine σ lab} {ok : ι → σ → lab → Prop} {s : σ}
    {labels : List lab} :
    m.Along (fun s a => ∀ i, ok i s a) s labels ↔ ∀ i, m.Along (ok i) s labels := by
  induction labels generalizing s with
  | nil => exact ⟨fun _ _ => trivial, fun _ => trivial⟩
  | cons a rest ih =>
      constructor
      · rintro ⟨now, later⟩ i
        exact ⟨now i, fun s' taken => ih.mp (later s' taken) i⟩
      · intro each
        exact ⟨fun i => (each i).1, fun s' taken => ih.mpr fun i => (each i).2 s' taken⟩

/-- Two conditions on steps agree along runs if they agree on each step from the states
of an invariant that steps with the first condition keep. -/
theorem Along.congr {m : Machine σ lab} {given p q : σ → lab → Prop} (holds : σ → Prop)
    (agree : ∀ s a, holds s → given s a → (p s a ↔ q s a))
    (kept : ∀ s a s', holds s → given s a → p s a → m.next s a = some s' → holds s')
    {s : σ} (start : holds s) {labels : List lab} (granted : m.Along given s labels) :
    m.Along p s labels ↔ m.Along q s labels := by
  induction labels generalizing s with
  | nil => exact Iff.rfl
  | cons a rest ih =>
      obtain ⟨now, later⟩ := granted
      have same := agree s a start now
      constructor
      · rintro ⟨first, further⟩
        refine ⟨same.mp first, fun s' taken => ?_⟩
        exact (ih (kept s a s' start now first taken) (later s' taken)).mp (further s' taken)
      · rintro ⟨first, further⟩
        have other := same.mpr first
        refine ⟨other, fun s' taken => ?_⟩
        exact (ih (kept s a s' start now other taken) (later s' taken)).mpr (further s' taken)

end Machine

end L3Firewall.Foundation.Runs
