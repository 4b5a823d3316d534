/- Foundation/Unwinding
   digest: What concerns one party along a run depends on the steps that concern it. -/

import L3Firewall.Foundation.Runs
import Mathlib.Data.List.Basic

set_option autoImplicit false
set_option relaxedAutoImplicit false

namespace L3Firewall.Foundation.Unwinding

open Runs

universe u v w

variable {σ : Type u} {lab : Type v} {out : Type w}

/-- The machine of a step function that is never stuck. -/
def total (step : σ → lab → out × σ) : Machine σ lab :=
  ⟨fun _ => True, fun s a => some (step s a).2⟩

def ownSteps (step : σ → lab → out × σ) (own : σ → lab → Bool) : σ → List lab → List lab
  | _, [] => []
  | s, a :: rest =>
      if own s a then a :: ownSteps step own (step s a).2 rest
      else ownSteps step own (step s a).2 rest

def observed (step : σ → lab → out × σ) (own : σ → lab → Bool) : σ → List lab → List out
  | _, [] => []
  | s, a :: rest =>
      if own s a then (step s a).1 :: observed step own (step s a).2 rest
      else observed step own (step s a).2 rest

/-- Two states are alike for the party. Its own steps keep them alike and put out the same
from both, any other step leaves what it started from alike to what that was alike to. -/
structure Unwinds (step : σ → lab → out × σ) (own : σ → lab → Bool) (ok : σ → lab → Prop)
    (alike : σ → σ → Prop) : Prop where
  symm : ∀ s t, alike s t → alike t s
  consistent : ∀ s t a, alike s t → own s a = true → own t a = true → ok s a → ok t a →
    (step s a).1 = (step t a).1 ∧ alike (step s a).2 (step t a).2
  respects : ∀ s t a, alike s t → own s a = false → ok s a → alike (step s a).2 t

variable {step : σ → lab → out × σ} {own : σ → lab → Bool} {ok : σ → lab → Prop}
  {alike : σ → σ → Prop}

private theorem ownSteps_own {s : σ} {a : lab} (mine : own s a = true) (rest : List lab) :
    ownSteps step own s (a :: rest) = a :: ownSteps step own (step s a).2 rest :=
  if_pos mine

private theorem ownSteps_other {s : σ} {a : lab} (other : own s a = false) (rest : List lab) :
    ownSteps step own s (a :: rest) = ownSteps step own (step s a).2 rest :=
  if_neg (by simp [other])

private theorem observed_own {s : σ} {a : lab} (mine : own s a = true) (rest : List lab) :
    observed step own s (a :: rest) = (step s a).1 :: observed step own (step s a).2 rest :=
  if_pos mine

private theorem observed_other {s : σ} {a : lab} (other : own s a = false) (rest : List lab) :
    observed step own s (a :: rest) = observed step own (step s a).2 rest :=
  if_neg (by simp [other])

private theorem observed_others (s : σ) {labels : List lab}
    (none : ownSteps step own s labels = []) :
    observed step own s labels = [] := by
  induction labels generalizing s with
  | nil => rfl
  | cons a rest ih =>
      cases mine : own s a with
      | true =>
          rw [ownSteps_own mine] at none
          exact absurd none (by simp)
      | false =>
          rw [ownSteps_other mine] at none
          rw [observed_other mine]
          exact ih _ none

def ownFlags (step : σ → lab → out × σ) (own : σ → lab → Bool) : σ → List lab → List Bool
  | _, [] => []
  | s, a :: rest => own s a :: ownFlags step own (step s a).2 rest

def pick : List Bool → List lab → List lab
  | true :: flags, a :: rest => a :: pick flags rest
  | false :: flags, _ :: rest => pick flags rest
  | _, _ => []

theorem ownSteps_eq_pick (s : σ) (labels : List lab) :
    ownSteps step own s labels = pick (ownFlags step own s labels) labels := by
  induction labels generalizing s with
  | nil => rfl
  | cons a rest ih =>
      unfold ownFlags
      cases mine : own s a with
      | true => rw [ownSteps_own mine, ih, pick]
      | false => rw [ownSteps_other mine, ih, pick]

private theorem Along.cons {s : σ} {a : lab} {rest : List lab}
    (granted : (total step).Along ok s (a :: rest)) :
    ok s a ∧ (total step).Along ok (step s a).2 rest :=
  ⟨granted.1, granted.2 _ rfl⟩

theorem Unwinds.observed_eq (unwinds : Unwinds step own ok alike) {s t : σ}
    (start : alike s t) (labels labels' : List lab)
    (granted : (total step).Along ok s labels) (granted' : (total step).Along ok t labels')
    (same : ownSteps step own s labels = ownSteps step own t labels') :
    observed step own s labels = observed step own t labels' := by
  induction labels generalizing s t labels' with
  | nil => exact (observed_others t same.symm).symm
  | cons a rest ih =>
      obtain ⟨now, later⟩ := Along.cons granted
      cases mine : own s a with
      | false =>
          rw [ownSteps_other mine] at same
          rw [observed_other mine]
          exact ih (unwinds.respects s t a start mine now) labels' later granted' same
      | true =>
          rw [ownSteps_own mine] at same
          -- The other run takes steps of others until it comes to the same step.
          induction labels' generalizing t with
          | nil => exact absurd same (by simp [ownSteps])
          | cons b rest' ih' =>
              obtain ⟨now', later'⟩ := Along.cons granted'
              cases theirs : own t b with
              | false =>
                  have skipped := unwinds.respects t s b (unwinds.symm s t start) theirs now'
                  rw [ownSteps_other theirs] at same
                  rw [observed_other theirs]
                  exact ih' (unwinds.symm _ _ skipped) later' same
              | true =>
                  rw [ownSteps_own theirs] at same
                  obtain ⟨rfl, later_same⟩ := List.cons.inj same
                  obtain ⟨put, next⟩ := unwinds.consistent s t a start mine theirs now now'
                  rw [observed_own mine, observed_own theirs, put,
                    ih next rest' later later' later_same]

end L3Firewall.Foundation.Unwinding
