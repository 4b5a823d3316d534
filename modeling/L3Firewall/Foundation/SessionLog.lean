/- Foundation/SessionLog
   digest: A store that remembers for each key what has happened since its session began, with a
   quota for groups of keys, a capacity and idle timeouts; below the capacity it forgets nothing
   that is in use. -/

import Mathlib.Data.Set.Card

set_option autoImplicit false
set_option relaxedAutoImplicit false

namespace L3Firewall.Foundation.SessionLog

universe u v w

variable {κ : Type u} {γ : Type v} {π : Type w}

/-- No quota is no limit. At the capacity the oldest of a sample makes room. -/
structure Rules (κ : Type u) (γ : Type v) (π : Type w) where
  group : κ → γ
  time : π → Nat
  capacity : Nat
  quota : Option Nat
  sample : Nat
  timeout : κ → Int

/-- The entries of the open sessions. A key without entries has none. -/
abbrev Log (κ : Type u) (π : Type w) := κ → List π

inductive Act (κ : Type u) (π : Type w)
  | packet (k : κ) (p : π)
  | close (k : κ)
  | expire (now : Nat)

def live (s : Log κ π) : Set κ := {k | s k ≠ []}

namespace Rules

variable (R : Rules κ γ π)

def lastTime (l : List π) : Nat := (l.getLast?.map R.time).getD 0

noncomputable def share (s : Log κ π) (g : γ) : Nat := {k | k ∈ live s ∧ R.group k = g}.ncard

/-- The group of the key has not reached its quota. -/
def Below (s : Log κ π) (k : κ) : Prop := ∀ q, R.quota = some q → R.share s (R.group k) < q

/-- An open session that no other one of a sample has been idle for longer than. -/
def Oldest (s : Log κ π) (v : κ) : Prop :=
  ∃ sampled : Finset κ, v ∈ sampled ∧ ↑sampled ⊆ live s ∧
    sampled.card = min R.sample (live s).ncard ∧
    ∀ k ∈ sampled, R.lastTime (s v) ≤ R.lastTime (s k)

def expired (s : Log κ π) (now : Nat) : Log κ π :=
  fun k => if R.timeout k < (now : Int) - R.lastTime (s k) then [] else s k

variable [DecidableEq κ]

/-- What an action answers and leaves: the session of a packet, or nothing. -/
inductive Step (s : Log κ π) : Act κ π → Option (κ × List π) → Log κ π → Prop
  | continued {k : κ} (p : π) (known : k ∈ live s) :
      Step s (.packet k p) (some (k, s k ++ [p])) (Function.update s k (s k ++ [p]))
  | refused {k : κ} (p : π) {q : Nat} (new : k ∉ live s) (limit : R.quota = some q)
      (full : q ≤ R.share s (R.group k)) : Step s (.packet k p) none s
  | opened {k : κ} (p : π) (new : k ∉ live s) (below : R.Below s k)
      (room : (live s).ncard < R.capacity) :
      Step s (.packet k p) (some (k, [p])) (Function.update s k [p])
  | replaced {k v : κ} (p : π) (new : k ∉ live s) (below : R.Below s k)
      (full : R.capacity ≤ (live s).ncard) (oldest : R.Oldest s v) :
      Step s (.packet k p) (some (k, [p])) (Function.update (Function.update s v []) k [p])
  | closed (k : κ) : Step s (.close k) none (Function.update s k [])
  | expired (now : Nat) : Step s (.expire now) none (R.expired s now)

inductive Runs : Log κ π → List (Act κ π) → List (Option (κ × List π)) → Log κ π → Prop
  | nil (s : Log κ π) : Runs s [] [] s
  | cons {s t u : Log κ π} {a : Act κ π} {out : Option (κ × List π)} {acts : List (Act κ π)}
      {outs : List (Option (κ × List π))} (step : R.Step s a out t) (rest : Runs t acts outs u) :
      Runs s (a :: acts) (out :: outs) u

end Rules

section Memory

variable {R : Rules κ γ π} [DecidableEq κ] {s t : Log κ π} {a : Act κ π}
  {out : Option (κ × List π)} {k : κ}

def packetsOf (k : κ) : List (Act κ π) → List π
  | [] => []
  | .packet j p :: rest => if j = k then p :: packetsOf k rest else packetsOf k rest
  | .close _ :: rest | .expire _ :: rest => packetsOf k rest

def keysOf : List (Act κ π) → Finset κ
  | [] => ∅
  | .packet k _ :: rest => insert k (keysOf rest)
  | .close _ :: rest | .expire _ :: rest => keysOf rest

/-- The key is not closed, and no expiry comes later than the timeout after its last entry, given
its entries so far. -/
def Rules.InUse (R : Rules κ γ π) (k : κ) : List π → List (Act κ π) → Prop
  | _, [] => True
  | l, .packet j p :: rest => R.InUse k (if j = k then l ++ [p] else l) rest
  | l, .close j :: rest => j ≠ k ∧ R.InUse k l rest
  | l, .expire now :: rest =>
      (l ≠ [] → (now : Int) - R.lastTime l ≤ R.timeout k) ∧ R.InUse k l rest

private theorem live_update_subset {l : List π} {j : κ}
    (member : j ∈ live (Function.update s k l)) :
    j = k ∨ j ∈ live s := by
  by_cases same : j = k
  · exact .inl same
  · change Function.update s k l j ≠ [] at member
    rw [Function.update_of_ne same] at member
    exact .inr member

private theorem live_ended_subset : live (Function.update s k []) ⊆ live s := by
  intro j member
  rcases live_update_subset member with rfl | held
  · exact absurd (Function.update_self ..) member
  · exact held

private theorem Rules.Step.live_subset (step : R.Step s a out t) :
    live t ⊆ live s ∪ ↑(keysOf [a]) := by
  intro j member
  cases step with
  | continued p known | opened p new below room =>
      rcases live_update_subset member with rfl | held
      · exact .inr (by simp [keysOf])
      · exact .inl held
  | refused p new limit full => exact .inl member
  | replaced p new below full oldest =>
      rcases live_update_subset member with rfl | held
      · exact .inr (by simp [keysOf])
      · exact .inl (live_ended_subset held)
  | closed k => exact .inl (live_ended_subset member)
  | expired now =>
      refine .inl fun empty => member ?_
      unfold Rules.expired
      rw [empty, ite_self]

theorem Rules.Step.keeps (step : R.Step s a out t) (before : k ∈ live s) (after : k ∈ live t) :
    ∃ more, t k = s k ++ more := by
  have other {j : κ} {l : List π} (different : j ≠ k) :
      ∃ more, Function.update s j l k = s k ++ more :=
    ⟨[], by rw [Function.update_of_ne (Ne.symm different), List.append_nil]⟩
  cases step with
  | @continued j p known =>
      by_cases same : j = k
      · exact ⟨[p], by rw [same, Function.update_self]⟩
      · exact other same
  | refused p new limit full => exact ⟨[], (List.append_nil _).symm⟩
  | @opened j p new below room => exact other fun same => new (same ▸ before)
  | @replaced j v p new below full oldest =>
      have different : k ≠ j := fun same => new (same ▸ before)
      change Function.update (Function.update s v []) j [p] k ≠ [] at after
      rw [Function.update_of_ne different] at after ⊢
      exact other fun same => after (by rw [same, Function.update_self])
  | closed j => exact other fun same => after (by rw [same, Function.update_self])
  | expired now =>
      change R.expired s now k ≠ [] at after
      unfold Rules.expired at after ⊢
      split at after
      · exact absurd rfl after
      · next recent => exact ⟨[], by rw [if_neg recent, List.append_nil]⟩

variable {K : Finset κ}

private theorem ncard_live_lt (known : live s ⊆ ↑K) (inside : k ∈ K) (new : k ∉ live s) :
    (live s).ncard < K.card := by
  have without : live s ⊆ ↑(K.erase k) := fun j held =>
    Finset.mem_coe.mpr (Finset.mem_erase.mpr ⟨fun same => new (same ▸ held), known held⟩)
  have bound := Set.ncard_le_ncard without (Finset.finite_toSet _)
  rw [Set.ncard_coe_finset, Finset.card_erase_of_mem inside] at bound
  have positive : 0 < K.card := Finset.card_pos.mpr ⟨k, inside⟩
  omega

omit [DecidableEq κ] in
private theorem share_lt (known : live s ⊆ ↑K) (inside : k ∈ K) (new : k ∉ live s) :
    R.share s (R.group k) < {j | j ∈ K ∧ R.group j = R.group k}.ncard := by
  have finite : {j | j ∈ K ∧ R.group j = R.group k}.Finite :=
    K.finite_toSet.subset fun j member => member.1
  refine Set.ncard_lt_ncard ⟨?_, fun all => ?_⟩ finite
  · exact fun j member => ⟨known member.1, member.2⟩
  · exact new (all ⟨inside, rfl⟩).1

private theorem Rules.Step.remembers (step : R.Step s a out t) (known : live s ⊆ ↑K)
    (inside : keysOf [a] ⊆ K) (room : K.card ≤ R.capacity)
    (shares : ∀ q, R.quota = some q → {j | j ∈ K ∧ R.group j = R.group k}.ncard ≤ q)
    (used : R.InUse k (s k) [a]) : t k = s k ++ packetsOf k [a] := by
  cases step with
  | @continued j p held =>
      by_cases same : j = k
      · simp [packetsOf, same]
      · simp [packetsOf, same, Ne.symm same]
  | @refused j p q new limit full =>
      by_cases same : j = k
      · subst same
        have below := share_lt (R := R) known (inside (by simp [keysOf])) new
        have bound := shares q limit
        omega
      · simp [packetsOf, same]
  | @opened j p new below room =>
      by_cases same : j = k
      · subst same
        simp [packetsOf, not_not.mp new]
      · simp [packetsOf, same, Ne.symm same]
  | @replaced j v p new below full oldest =>
      have less := ncard_live_lt known (inside (by simp [keysOf])) new
      omega
  | closed j =>
      simp [packetsOf, Ne.symm used.1]
  | expired now =>
      unfold Rules.expired
      rw [packetsOf, packetsOf, List.append_nil]
      split
      · next idle =>
          by_contra kept
          have recent := used.1 (Ne.symm kept)
          omega
      · rfl

private theorem InUse_cons {l : List π} {acts : List (Act κ π)} (used : R.InUse k l (a :: acts)) :
    R.InUse k l [a] ∧ R.InUse k (l ++ packetsOf k [a]) acts := by
  cases a with
  | packet j p =>
      refine ⟨trivial, ?_⟩
      by_cases same : j = k
      · simpa [Rules.InUse, packetsOf, same] using used
      · simpa [Rules.InUse, packetsOf, same] using used
  | close j => exact ⟨⟨used.1, trivial⟩, by simpa [packetsOf] using used.2⟩
  | expire now => exact ⟨⟨used.1, trivial⟩, by simpa [packetsOf] using used.2⟩

private theorem packetsOf_cons (k : κ) (a : Act κ π) (acts : List (Act κ π)) :
    packetsOf k (a :: acts) = packetsOf k [a] ++ packetsOf k acts := by
  cases a with
  | packet j p =>
      by_cases same : j = k
      · simp [packetsOf, same]
      · simp [packetsOf, same]
  | close j => rfl
  | expire now => rfl

private theorem keysOf_cons (a : Act κ π) (acts : List (Act κ π)) :
    keysOf (a :: acts) = keysOf [a] ∪ keysOf acts := by
  cases a with
  | packet j p => simp [keysOf]
  | close j => simp [keysOf]
  | expire now => simp [keysOf]

theorem keysOf_append (acts later : List (Act κ π)) :
    keysOf (acts ++ later) = keysOf acts ∪ keysOf later := by
  induction acts with
  | nil => exact (Finset.empty_union _).symm
  | cons a acts ih =>
      rw [List.cons_append, keysOf_cons, ih, keysOf_cons a acts, Finset.union_assoc]

theorem Rules.InUse.of_append {l : List π} {acts later : List (Act κ π)}
    (used : R.InUse k l (acts ++ later)) : R.InUse k l acts := by
  induction acts generalizing l with
  | nil => trivial
  | cons a acts ih =>
      cases a with
      | packet j p => exact @ih (if j = k then l ++ [p] else l) used
      | close j => exact ⟨used.1, ih used.2⟩
      | expire now => exact ⟨used.1, ih used.2⟩

theorem Rules.Runs.remembers {u : Log κ π} {acts : List (Act κ π)}
    {outs : List (Option (κ × List π))} (run : R.Runs s acts outs u) (known : live s ⊆ ↑K)
    (inside : keysOf acts ⊆ K) (room : K.card ≤ R.capacity)
    (shares : ∀ q, R.quota = some q → {j | j ∈ K ∧ R.group j = R.group k}.ncard ≤ q)
    (used : R.InUse k (s k) acts) : u k = s k ++ packetsOf k acts := by
  induction run with
  | nil s => exact (List.append_nil _).symm
  | @cons s t u a out acts outs step rest ih =>
      rw [keysOf_cons] at inside
      have first := Finset.union_subset_left inside
      obtain ⟨now, later⟩ := InUse_cons used
      have kept := step.remembers known first room shares now
      rw [← kept] at later
      have next := fun j held => (step.live_subset held).elim (@known j) (@first j)
      rw [ih next (Finset.union_subset_right inside) later, kept, packetsOf_cons k a acts,
        List.append_assoc]

end Memory

end L3Firewall.Foundation.SessionLog
