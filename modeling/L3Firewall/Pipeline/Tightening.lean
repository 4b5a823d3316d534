/- Pipeline/Tightening
   source: internal/engine/engine.go, opa-policies/l3.rego
   digest: Under a tighter policy no packet of any run gets through that did not before, and the
   tables do not depend on the policy at all. -/

import L3Firewall.Opa.Monotone
import L3Firewall.Pipeline.Counters
import L3Firewall.Pipeline.Course

set_option autoImplicit false
set_option relaxedAutoImplicit false

namespace L3Firewall.Pipeline.Tightening

open Foundation.Recover (Reply)
open Foundation.Rego (Builtins)
open Packet.Parser (Bytes Decoder PacketInfo ParsePacket)
open Conntrack.FlowTable (Table Flow)
open Opa.Decision (Denied)
open Opa.Document (Input)
open Opa.Evaluator (Text Result Evaluate decisionQuery evaluate_decisionQuery)
open Opa.Policy (Constants)
open Opa.Monotone (Tighter)
open Handlers
open Course

/-- The evaluator answers by the policy with these constants, or it fails or panics. -/
def Loaded (b : Builtins) (c : Constants) (evaluate : Input → Reply (Option Result)) : Prop :=
  ∀ i, evaluate i = Evaluate (some (decisionQuery b c)) i ∨
    (∃ err, evaluate i = .failed err) ∨ ∃ value, evaluate i = .panicked value

/-- The same packet in the same surroundings, but for the policy: the first run is answered by
one policy, and the second by a tighter one, which may also fail. -/
structure Tightened (b : Builtins) (x y : Env × Option Bytes) : Prop where
  payload : y.2 = x.2
  surroundings : y.1 = { x.1 with evaluate := y.1.evaluate }
  policies : ∃ c c', Tighter c c' ∧ x.1.evaluate = Evaluate (some (decisionQuery b c)) ∧
    Loaded b c' y.1.evaluate

/-- Two engines that differ only in counters and records. -/
structure Same (e e' : Engine) : Prop where
  setup : settings e = settings e'
  conntrack : e.conntrack = e'.conntrack
  ratelimit : e.ratelimit = e'.ratelimit

/-- The packet is let through, and nothing panics while that is logged. -/
def Passes (env : Env) (pi : PacketInfo) (e : Engine) (ending : Ending) : Prop :=
  ∃ result, answer env pi e ending = .ok result ∧ result.allowed = true

section Endings

variable {b : Builtins} {c c' : Constants} {env : Env} {q : Input → Reply (Option Result)}
  {e e' : Engine} {pi : PacketInfo} {tid : String}

private theorem passes_settings (setup : settings e = settings e') (ending : Ending) :
    Passes env pi e' ending ↔ Passes env pi e ending := by
  unfold Passes
  rw [answer_settings env pi e, answer_settings env pi e', setup]

private theorem not_passes_blocked {reason : Text} {alert : Option (AlertType × Text)} :
    ¬ Passes env pi e (.blocked tid reason alert) := by
  rintro ⟨result, answered, allowed⟩
  rw [answer] at answered
  cases log : logged env e (auditEvent env pi .packetBlock tid reason) with
  | error value =>
      rw [log] at answered
      cases answered
  | ok _ =>
      rw [log] at answered
      cases sent : alerted env e alert with
      | error value =>
          rw [sent] at answered
          cases answered
      | ok _ =>
          rw [sent] at answered
          obtain rfl := Except.ok.inj answered
          cases allowed

private theorem not_passes_panicked {value : String} : ¬ Passes env pi e (.panicked value) := by
  rintro ⟨result, answered, -⟩
  cases answered

private theorem passes_accepted {type : EventType} {reason : Text} {result result' : Result}
    (allowed : result'.allowed = true)
    (passes : Passes env pi e (.accepted tid type reason result)) :
    Passes env pi e (.accepted tid type reason result') := by
  obtain ⟨given, answered, -⟩ := passes
  refine ⟨result', ?_, allowed⟩
  rw [answer] at answered ⊢
  cases log : logged env e (auditEvent env pi type tid reason) with
  | error value =>
      rw [log] at answered
      cases answered
  | ok _ => rfl

private theorem judgement_passes (tighter : Tighter c c')
    (answers : env.evaluate = Evaluate (some (decisionQuery b c))) (loaded : Loaded b c' q)
    (enforced : e.auditOnly = false) (input : Input)
    (passes : Passes env pi e (judgement { env with evaluate := q } e tid input)) :
    Passes env pi e (judgement env e tid input) := by
  unfold judgement at passes ⊢
  by_cases present : e.eval = true
  · rw [if_pos present] at passes ⊢
    dsimp only at passes
    rcases loaded input with same | ⟨err, failed⟩ | ⟨value, panicked⟩
    · obtain ⟨reason, answered⟩ := evaluate_decisionQuery b c input
      obtain ⟨reason', answered'⟩ := evaluate_decisionQuery b c' input
      rw [same, answered'] at passes
      rw [answers, answered]
      by_cases denied : Denied b c' input
      · simp only [denied, decide_true, Bool.not_true, Bool.not_false, enforced, Bool.and_false,
          Bool.false_eq_true, if_false] at passes
        exact absurd passes not_passes_blocked
      · have before : ¬ Denied b c input := fun held => denied (tighter.denied held)
        simp only [before, denied, decide_false, Bool.not_false, Bool.not_true, Bool.false_and,
          Bool.false_eq_true, if_false, if_true] at passes ⊢
        exact passes_accepted rfl passes
    · rw [failed] at passes
      exact absurd passes not_passes_blocked
    · rw [panicked] at passes
      exact absurd passes not_passes_panicked
  · rw [if_neg present] at passes ⊢
    exact passes

private theorem conclusion_passes (tighter : Tighter c c')
    (answers : env.evaluate = Evaluate (some (decisionQuery b c))) (loaded : Loaded b c' q)
    (setup : settings e = settings e') (enforced : e.auditOnly = false) (input : Input)
    (passes : Passes env pi e' (conclusion { env with evaluate := q } e' pi tid input)) :
    Passes env pi e (conclusion env e pi tid input) := by
  rw [passes_settings setup, conclusion_settings _ e', ← setup, ← conclusion_settings] at passes
  have countries : withCountries { env with evaluate := q } e pi input =
    withCountries env e pi input := rfl
  unfold conclusion at passes ⊢
  rw [countries] at passes
  split
  · next found =>
      rw [if_pos found] at passes
      exact passes
  · next absent =>
      rw [if_neg absent] at passes
      cases known : withCountries env e pi input with
      | error value =>
          rw [known] at passes
          exact passes
      | ok input' =>
          rw [known] at passes
          exact judgement_passes tighter answers loaded enforced input' passes

end Endings

section Courses

variable {b : Builtins} {c c' : Constants} {env : Env} {q : Input → Reply (Option Result)}
  {e e' : Engine} {pi : PacketInfo} {tid : String}

/-- What a packet comes to in two engines, the second under the tighter policy. -/
structure Behind (env : Env) (pi : PacketInfo) (x y : Engine × Ending) : Prop where
  same : Same x.1 y.1
  passes : Passes env pi y.1 y.2 → Passes env pi x.1 x.2

private theorem Behind.of_same (same : Same e e') (ending : Ending) :
    Behind env pi (e, ending) (e', ending) :=
  ⟨same, (passes_settings same.setup ending).mp⟩

variable (tighter : Tighter c c') (answers : env.evaluate = Evaluate (some (decisionQuery b c)))
  (loaded : Loaded b c' q)

include tighter answers loaded

private theorem courseRates_behind (same : Same e e') (enforced : e.auditOnly = false) (size : Nat)
    (flow : Flow) (t : Table) :
    Behind env pi (courseRates env pi size tid flow t e)
      (courseRates { env with evaluate := q } pi size tid flow t e') := by
  unfold courseRates
  rw [← same.ratelimit]
  cases e.ratelimit with
  | none => exact .of_same same _
  | some l =>
      have after : Same { e with ratelimit := some (trackRates env pi size l).2 }
          { e' with ratelimit := some (trackRates env pi size l).2 } :=
        ⟨same.setup, same.conntrack, rfl⟩
      change Behind env pi (if exceeds (trackRates env pi size l) then _ else _)
        (if exceeds (trackRates env pi size l) then _ else _)
      split
      · exact .of_same after _
      · exact ⟨after, conclusion_passes tighter answers loaded after.setup enforced _⟩

private theorem courseFlow_behind (same : Same e e') (enforced : e.auditOnly = false) (size : Nat) :
    Behind env pi (courseFlow env pi size tid e)
      (courseFlow { env with evaluate := q } pi size tid e') := by
  unfold courseFlow
  rw [← same.conntrack]
  cases e.conntrack with
  | none => exact .of_same same _
  | some t =>
      have filter : macRefusal (settings e').l2Filter pi.srcMAC =
        macRefusal (settings e).l2Filter pi.srcMAC := by rw [same.setup]
      change macRefusal e'.l2Filter pi.srcMAC = macRefusal e.l2Filter pi.srcMAC at filter
      have after (table : Table) :
          Same { e with conntrack := some table } { e' with conntrack := some table } :=
        ⟨same.setup, rfl, same.ratelimit⟩
      have tracked : trackFlow { env with evaluate := q } pi t = trackFlow env pi t := rfl
      have table : trackedTable { env with evaluate := q } pi t = trackedTable env pi t := rfl
      dsimp only
      rw [tracked, table, filter]
      cases (trackFlow env pi t).1 with
      | none => exact .of_same (after _) _
      | some flow =>
          dsimp only
          cases macRefusal e.l2Filter pi.srcMAC with
          | some reason => exact .of_same (after _) _
          | none => exact courseRates_behind tighter answers loaded (after _) enforced size flow _

private theorem course_behind (same : Same e e') (enforced : e.auditOnly = false) (size : Nat) :
    Behind env pi (course env pi size e) (course { env with evaluate := q } pi size e') := by
  have counted : Same e.countProcessed e'.countProcessed :=
    ⟨same.setup, same.conntrack, same.ratelimit⟩
  have trace : traceID { env with evaluate := q } = traceID env := rfl
  unfold course
  rw [trace]
  cases traceID env with
  | error value => exact .of_same counted _
  | ok tid => exact courseFlow_behind tighter answers loaded counted enforced size

end Courses

section Runs

variable {b : Builtins} {d : Decoder} {x y : Env × Option Bytes} {e e' : Engine}

private theorem decision_zero_iff {env : Env} {pi : PacketInfo} {raw : Bytes} {ending : Ending} :
    (decision env raw (result env pi (e, ending))).1 = 0 ↔ Passes env pi e ending := by
  have allowed : (result env pi (e, ending)).1.allowed = true ↔ Passes env pi e ending := by
    unfold result Passes
    dsimp only
    cases answer env pi e ending with
    | ok given => simp
    | error value => simp
  unfold decision
  rw [← allowed]
  split
  · next passed => simp [passed]
  · next dropped => simp [dropped]

private theorem handled_tightened (tightened : Tightened b x y) (same : Same e e')
    (enforced : e.auditOnly = false) :
    ((handled d y.1 y.2 e').1 = 0 → (handled d x.1 x.2 e).1 = 0) ∧
      Same (handled d x.1 x.2 e).2 (handled d y.1 y.2 e').2 := by
  obtain ⟨env, payload⟩ := x
  obtain ⟨env', payload'⟩ := y
  obtain ⟨rfl, surroundings, c, c', tighter, answers, loaded⟩ := tightened
  dsimp only at surroundings answers loaded ⊢
  generalize env'.evaluate = q at surroundings loaded
  subst surroundings
  have dropped : Same e.countProcessed.countBlocked e'.countProcessed.countBlocked :=
    ⟨same.setup, same.conntrack, same.ratelimit⟩
  unfold handled
  cases payload' with
  | none => exact ⟨id, dropped⟩
  | some raw =>
      dsimp only
      cases ParsePacket d raw with
      | error err => exact ⟨id, dropped⟩
      | ok pi =>
          obtain ⟨reached, passes⟩ :=
            @course_behind b c c' env q e e' pi tighter answers loaded same enforced raw.length
          have first := decision_same env pi raw (course env pi raw.length e).1
            (course env pi raw.length e).2
          have second := decision_same { env with evaluate := q } pi raw
            (course { env with evaluate := q } pi raw.length e').1
            (course { env with evaluate := q } pi raw.length e').2
          refine ⟨fun passed => decision_zero_iff.mpr (passes ?_), ?_, ?_, ?_⟩
          · exact decision_zero_iff.mp passed
          · exact first.1.trans (reached.setup.trans second.1.symm)
          · exact first.2.1.trans (reached.conntrack.trans second.2.1.symm)
          · exact first.2.2.trans (reached.ratelimit.trans second.2.2.symm)

private theorem handled_settings (d : Decoder) (env : Env) (payload : Option Bytes) (e : Engine) :
    settings (handled d env payload e).2 = settings e := by
  unfold handled
  cases payload with
  | none => rfl
  | some raw =>
      dsimp only
      cases ParsePacket d raw with
      | error err => rfl
      | ok pi =>
          obtain ⟨table, limiter, reached⟩ := course_engine env pi raw.length e
          have kept : settings (course env pi raw.length e).1 = settings e := by
            rw [reached]
            rfl
          exact (decision_same env pi raw _ _).1.trans kept

private theorem handleAll_tightened {run run' : List (Env × Option Bytes)}
    (all : List.Forall₂ (Tightened b) run run') (same : Same e e')
    (enforced : e.auditOnly = false) :
    List.Forall₂ (fun r r' => r' = .ok 0 → r = .ok 0) (handleAll d run e).1
        (handleAll d run' e').1 ∧
      Same (handleAll d run e).2 (handleAll d run' e').2 := by
  induction all generalizing e e' with
  | nil => exact ⟨.nil, same⟩
  | @cons x y rest rest' tightened later ih =>
      obtain ⟨passes, next⟩ := handled_tightened (d := d) tightened same enforced
      have still : (settings (handled d x.1 x.2 e).2).auditOnly = (settings e).auditOnly := by
        rw [handled_settings]
      obtain ⟨others, last⟩ := ih next (still.trans enforced)
      simp only [handleAll, packetHandler_eq]
      refine ⟨.cons (fun passed => ?_) others, last⟩
      exact congrArg Except.ok (passes (Except.ok.inj passed))

end Runs

/-- A tighter policy lets through no packet that the other one does not. The same packets are
handled twice by an enforcing engine, each with the constants in force when it comes, which may be
reloaded at any time, and in the second run with tighter ones. Every packet that passes then also
passes in the first run, and both runs leave the same flows and the same buckets: what was denied
earlier in the one and not in the other does not matter. -/
theorem tighter_policy_passes_less (b : Builtins) (d : Decoder) (e : Engine)
    (enforced : e.auditOnly = false) (run run' : List (Env × Option Bytes))
    (tightened : List.Forall₂ (Tightened b) run run') :
    List.Forall₂ (fun r r' => r' = .ok 0 → r = .ok 0) (handleAll d run e).1
        (handleAll d run' e).1 ∧
      (handleAll d run e).2.conntrack = (handleAll d run' e).2.conntrack ∧
      (handleAll d run e).2.ratelimit = (handleAll d run' e).2.ratelimit := by
  obtain ⟨decisions, same⟩ := handleAll_tightened tightened ⟨rfl, rfl, rfl⟩ enforced
  exact ⟨decisions, same.conntrack, same.ratelimit⟩

def openPorts : Constants := { Opa.Policy.shipped with blockedPorts := [] }

private theorem openPorts_tighter : Tighter openPorts Opa.Policy.shipped :=
  { Tighter.refl openPorts with ports := List.nil_subset _ }

def synUnder (c : Constants) : Env × Option Bytes :=
  ({ Quiet.quietEnv Evasion.everywhere 0 with
      evaluate := Evaluate (some (decisionQuery Evasion.everywhere c)) },
    some Counters.wholeSyn)

theorem shipped_passes_less :
    (handleAll Packet.Parser.fixedFields [synUnder openPorts] Quiet.freshEngine).1 = [.ok 0] ∧
      (handleAll Packet.Parser.fixedFields [synUnder Opa.Policy.shipped] Quiet.freshEngine).1 =
        [.ok 1] ∧
      (handleAll Packet.Parser.fixedFields [synUnder openPorts] Quiet.freshEngine).2.conntrack =
        (handleAll Packet.Parser.fixedFields [synUnder Opa.Policy.shipped]
          Quiet.freshEngine).2.conntrack := by
  have tightened : Tightened Evasion.everywhere (synUnder openPorts)
      (synUnder Opa.Policy.shipped) :=
    ⟨rfl, rfl, openPorts, Opa.Policy.shipped, openPorts_tighter, rfl, fun _ => .inl rfl⟩
  have less := tighter_policy_passes_less Evasion.everywhere Packet.Parser.fixedFields
    Quiet.freshEngine rfl _ _ (.cons tightened .nil)
  exact ⟨by decide +kernel, by decide +kernel, less.2.1⟩

end L3Firewall.Pipeline.Tightening
