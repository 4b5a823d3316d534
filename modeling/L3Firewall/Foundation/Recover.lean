/- Foundation/Recover
   digest: Computations on a state that return or panic, and deferred recovery. -/

import Mathlib.Logic.Basic

set_option autoImplicit false
set_option relaxedAutoImplicit false

namespace L3Firewall.Foundation.Recover

variable {σ : Type} {α β : Type}

inductive Reply (α : Type)
  | returned (a : α)
  | failed (err : String)
  | panicked (value : String)
  deriving DecidableEq

/-- A computation returns a value or panics with a text. What it did to the state before
it panicked stays done. -/
def Action (σ α : Type) := σ → Except String α × σ

namespace Action

instance : Monad (Action σ) where
  pure a := fun s => (.ok a, s)
  bind x f := fun s =>
    match x s with
    | (.ok a, s') => f a s'
    | (.error text, s') => (.error text, s')

def fail (text : String) : Action σ α := fun s => (.error text, s)

def read : Action σ σ := fun s => (.ok s, s)

def update (f : σ → σ) : Action σ Unit := fun s => (.ok (), f s)

/-- The computation under a deferred handler that recovers. -/
def recover (x : Action σ α) (handler : String → Action σ α) : Action σ α := fun s =>
  match x s with
  | (.ok a, s') => (.ok a, s')
  | (.error text, s') => handler text s'

/-- A computation on one component of a larger state. -/
def focus {τ : Type} (get : τ → σ) (put : τ → σ → τ) (x : Action σ α) : Action τ α := fun t =>
  match x (get t) with
  | (result, s) => (result, put t s)

/-- From the first state the computation returns the value and leaves the second state. -/
def Returns (x : Action σ α) (s : σ) (a : α) (s' : σ) : Prop := x s = (.ok a, s')

theorem Returns.unique {x : Action σ α} {s s₁ s₂ : σ} {a₁ a₂ : α} (first : x.Returns s a₁ s₁)
    (second : x.Returns s a₂ s₂) : a₁ = a₂ ∧ s₁ = s₂ := by
  have same := first.symm.trans second
  exact ⟨Except.ok.inj (Prod.mk.inj same).1, (Prod.mk.inj same).2⟩

@[simp] theorem returns_pure {s s' : σ} {a b : α} :
    (pure a : Action σ α).Returns s b s' ↔ a = b ∧ s = s' := by
  change ((.ok a, s) : Except String α × σ) = (.ok b, s') ↔ _
  rw [Prod.mk.injEq, Except.ok.injEq]

@[simp] theorem returns_fail {s s' : σ} {a : α} {text : String} :
    ¬ (fail text : Action σ α).Returns s a s' := by
  change ((.error text, s) : Except String α × σ) ≠ (.ok a, s')
  exact nofun

@[simp] theorem returns_read {s s' t : σ} :
    (read : Action σ σ).Returns s t s' ↔ s = t ∧ s = s' := by
  change ((.ok s, s) : Except String σ × σ) = (.ok t, s') ↔ _
  rw [Prod.mk.injEq, Except.ok.injEq]

@[simp] theorem returns_update {f : σ → σ} {s s' : σ} {a : Unit} :
    (update f).Returns s a s' ↔ f s = s' := by
  change ((.ok (), f s) : Except String Unit × σ) = (.ok a, s') ↔ _
  rw [Prod.mk.injEq]
  exact ⟨fun same => same.2, fun same => ⟨rfl, same⟩⟩

theorem returns_bind {x : Action σ α} {f : α → Action σ β} {s s' : σ} {b : β} :
    (x >>= f).Returns s b s' ↔ ∃ a t, x.Returns s a t ∧ (f a).Returns t b s' := by
  change (match x s with
    | (.ok a, s') => f a s'
    | (.error text, s') => (.error text, s')) = (.ok b, s') ↔ _
  constructor
  · intro ran
    match first : x s with
    | (.ok a, t) =>
        rw [first] at ran
        exact ⟨a, t, first, ran⟩
    | (.error text, t) =>
        rw [first] at ran
        exact absurd ran nofun
  · rintro ⟨a, t, first, second⟩
    rw [show x s = (.ok a, t) from first]
    exact second

theorem Returns.then {x : Action σ α} {s t : σ} {a : α} (returned : x.Returns s a t)
    (f : α → Action σ β) : (x >>= f) s = f a t := by
  change (match x s with
    | (.ok a, s') => f a s'
    | (.error text, s') => (.error text, s')) = _
  rw [show x s = (.ok a, t) from returned]

theorem bind_panicked {x : Action σ α} {s t : σ} {text : String} (panicked : x s = (.error text, t))
    (f : α → Action σ β) : (x >>= f) s = (.error text, t) := by
  change (match x s with
    | (.ok a, s') => f a s'
    | (.error text, s') => (.error text, s')) = _
  rw [panicked]

def resume (f : α → Action σ β) : Except String α × σ → Except String β × σ
  | (.ok a, s) => f a s
  | (.error text, s) => (.error text, s)

theorem bind_apply (x : Action σ α) (f : α → Action σ β) (s : σ) : (x >>= f) s = resume f (x s) :=
  rfl

theorem recover_congr {x y : Action σ α} {s t : σ} (same : x s = y t)
    (handler : String → Action σ α) : recover x handler s = recover y handler t := by
  unfold recover
  rw [same]

theorem bind_pure_bind (x : Action σ α) {f : α → β} {k : β → Action σ α}
    (back : ∀ a, k (f a) = pure a) : ((x >>= fun a => pure (f a)) >>= k) = x := by
  funext s
  match ran : x s with
  | (.ok a, t) =>
      have wrapped : (x >>= fun a => (pure (f a) : Action σ β)) s = (.ok (f a), t) :=
        Returns.then ran _
      rw [Returns.then wrapped k, back]
      rfl
  | (.error text, t) => exact bind_panicked (bind_panicked ran _) k

theorem returns_update_pure (f : σ → σ) (a : α) (s : σ) :
    (update f >>= fun _ => (pure a : Action σ α)).Returns s a (f s) :=
  returns_bind.mpr ⟨(), f s, returns_update.mpr rfl, returns_pure.mpr ⟨rfl, rfl⟩⟩

theorem Returns.recovered {x : Action σ α} {s s' : σ} {a : α} (returned : x.Returns s a s')
    (handler : String → Action σ α) : (recover x handler).Returns s a s' := by
  change (match x s with
    | (.ok a, s') => (.ok a, s')
    | (.error text, s') => handler text s') = (.ok a, s')
  rw [show x s = (.ok a, s') from returned]

theorem returns_recover {x : Action σ α} {handler : String → Action σ α} {s s' : σ} {a : α} :
    (recover x handler).Returns s a s' ↔ x.Returns s a s' ∨
      ∃ text t, x s = (.error text, t) ∧ (handler text).Returns t a s' := by
  change (match x s with
    | (.ok a, s') => (.ok a, s')
    | (.error text, s') => handler text s') = (.ok a, s') ↔ x s = (.ok a, s') ∨ _
  match ran : x s with
  | (.ok b, t) =>
      refine ⟨.inl, ?_⟩
      rintro (returned | ⟨text, u, panicked, -⟩)
      · exact returned
      · exact absurd panicked nofun
  | (.error text, t) =>
      constructor
      · exact fun handled => .inr ⟨text, t, rfl, handled⟩
      · rintro (returned | ⟨text', u, same, handled⟩)
        · exact absurd returned nofun
        · obtain ⟨rfl, rfl⟩ : text = text' ∧ t = u :=
            ⟨Except.error.inj (Prod.mk.inj same).1, (Prod.mk.inj same).2⟩
          exact handled

theorem recover_total {handler : String → Action σ α}
    (handled : ∀ text t, ∃ a s', (handler text).Returns t a s') (x : Action σ α) (s : σ) :
    ∃ a s', (recover x handler).Returns s a s' := by
  match ran : x s with
  | (.ok a, s') => exact ⟨a, s', Returns.recovered ran handler⟩
  | (.error text, t) =>
      obtain ⟨a, s', returned⟩ := handled text t
      exact ⟨a, s', returns_recover.mpr (.inr ⟨text, t, ran, returned⟩)⟩

theorem returns_focus {τ : Type} {get : τ → σ} {put : τ → σ → τ} {x : Action σ α} {t t' : τ}
    {a : α} : (focus get put x).Returns t a t' ↔
      ∃ s, x.Returns (get t) a s ∧ put t s = t' := by
  change ((x (get t)).1, put t (x (get t)).2) = (.ok a, t') ↔ _
  rw [Prod.mk.injEq]
  constructor
  · rintro ⟨value, state⟩
    exact ⟨_, Prod.ext value rfl, state⟩
  · rintro ⟨s, returned, state⟩
    rw [show x (get t) = (.ok a, s) from returned]
    exact ⟨rfl, state⟩

section Keeps

variable {p : σ → Prop}

/-- However the computation ends, a state with the property is left with it. -/
def Keeps (p : σ → Prop) (x : Action σ α) : Prop := ∀ s, p s → p (x s).2

theorem keeps_pure (a : α) : (pure a : Action σ α).Keeps p := fun _ holds => holds

theorem keeps_fail (text : String) : (fail text : Action σ α).Keeps p := fun _ holds => holds

theorem keeps_update {f : σ → σ} (kept : ∀ s, p s → p (f s)) : (update f).Keeps p := kept

/-- However the computation ends, a state with the first property is left with the second. -/
def Leads (p q : σ → Prop) (x : Action σ α) : Prop := ∀ s, p s → q (x s).2

theorem leads_bind {q : σ → Prop} {x : Action σ α} {f : α → Action σ β} (first : x.Leads p q)
    (second : ∀ a, (f a).Keeps q) : (x >>= f).Leads p q := by
  intro s holds
  have middle := first s holds
  change q (match x s with
    | (.ok a, s') => f a s'
    | (.error text, s') => (.error text, s')).2
  match ran : x s with
  | (.ok a, t) =>
      rw [ran] at middle
      exact second a t middle
  | (.error text, t) =>
      rw [ran] at middle
      exact middle

theorem keeps_bind {x : Action σ α} {f : α → Action σ β} (first : x.Keeps p)
    (second : ∀ a, (f a).Keeps p) : (x >>= f).Keeps p :=
  leads_bind first second

theorem Returns.same {x : Action σ α} {s s' : σ} {a : α} (returned : x.Returns s a s')
    (still : x.Keeps (fun t => t = s)) : s' = s := by
  have kept := still s rfl
  rwa [show x s = (.ok a, s') from returned] at kept

theorem keeps_read_bind {f : σ → Action σ β} (rest : ∀ s, (f s).Keeps p) :
    (read >>= f).Keeps p :=
  keeps_bind (fun _ holds => holds) rest

theorem leads_recover {q : σ → Prop} {x : Action σ α} {handler : String → Action σ α}
    (body : x.Leads p q) (handled : ∀ text, (handler text).Keeps q) :
    (recover x handler).Leads p q := by
  intro s holds
  have middle := body s holds
  change q (match x s with
    | (.ok a, s') => ((.ok a, s') : Except String α × σ)
    | (.error text, s') => handler text s').2
  match ran : x s with
  | (.ok a, t) =>
      rw [ran] at middle
      exact middle
  | (.error text, t) =>
      rw [ran] at middle
      exact handled text t middle

theorem keeps_recover {x : Action σ α} {handler : String → Action σ α} (body : x.Keeps p)
    (handled : ∀ text, (handler text).Keeps p) : (recover x handler).Keeps p :=
  leads_recover body handled

end Keeps

end Action

end L3Firewall.Foundation.Recover
