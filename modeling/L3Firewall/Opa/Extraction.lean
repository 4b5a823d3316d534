/- Opa/Extraction
   source: internal/opa/embed.go
   digest: Which values of allow the evaluator takes for a permission. -/

import L3Firewall.Opa.Evaluator

set_option autoImplicit false
set_option relaxedAutoImplicit false

namespace L3Firewall.Opa.Extraction

open Foundation.Float64 (ParseFloat ParseFloat_of_small ParseFloat_ne_zero)
open Foundation.Recover (Reply)
open Foundation.Rego (Value Term)
open Document (Input BuildInput)
open Evaluator
open Packet.Parser (PacketInfo FragmentInfo)

section Switch

/-- Values of allow that permit: none at all, true, the strings for it, and a number other
than zero. -/
def Permits : Term → Prop
  | none => True
  | some (.scalar (.bool a)) => a = true
  | some (.scalar (.str s)) => s = "true" ∨ s = "1"
  | some (.scalar (.num q)) => q ≠ 0
  | some (.scalar .null) | some (.array _) | some (.set _) | some (.object _) => False

def Compound : Value → Prop
  | .scalar _ => False
  | .array _ | .set _ | .object _ => True

private theorem extractAllowed_num (q : ℚ) :
    extractAllowed true (.scalar (.num q)) = decide ((2 : ℚ) ^ (-1075 : ℤ) < |q|) := by
  rw [extractAllowed]
  rcases le_or_gt |q| (2 ^ (-1075 : ℤ)) with small | large
  · rw [ParseFloat_of_small small, decide_eq_false (not_lt.mpr small)]
    rfl
  · rw [decide_eq_true large]
    cases parsed : ParseFloat q with
    | none => rfl
    | some r => exact decide_eq_true (ParseFloat_ne_zero parsed large)

private theorem permits_of_extractAllowed {v : Value} (scalar : ¬ Compound v)
    (allowed : extractAllowed true v = true) : Permits (some v) := by
  match v with
  | .scalar (.bool a) => exact allowed
  | .scalar (.str s) =>
      rw [extractAllowed, Bool.or_eq_true, decide_eq_true_eq, decide_eq_true_eq] at allowed
      exact allowed
  | .scalar (.num q) =>
      rw [extractAllowed_num, decide_eq_true_eq] at allowed
      intro zero
      rw [zero, abs_zero] at allowed
      exact absurd allowed (not_lt.mpr (zpow_nonneg (by norm_num) _))
  | .scalar .null => exact absurd allowed (by simp [extractAllowed])
  | .array _ | .set _ | .object _ => exact absurd trivial scalar

private theorem extractAllowed_compound {v : Value} (compound : Compound v) (before : Bool) :
    extractAllowed before v = before ∧ ¬ Permits (some v) := by
  match v with
  | .scalar _ => exact absurd compound id
  | .array _ | .set _ | .object _ => exact ⟨rfl, id⟩

end Switch

/-- The value of allow in the document of the package, if it is defined at all. -/
def allowOf (doc : Option Value) : Term := doc.bind fun v => v.field "allow"

private theorem Evaluate_eq {eval : Input → Except String (List Value)} {input : Input}
    {doc : Option Value} (answered : eval input = .ok doc.toList) :
    ∃ reason, Evaluate (some eval) input =
      .returned (some ⟨((allowOf doc).map (extractAllowed true)).getD true, reason⟩) := by
  simp only [Evaluate, answered]
  cases doc with
  | none => exact ⟨[], rfl⟩
  | some v => exact ⟨(extract ⟨true, []⟩ v).reason, rfl⟩

/-- Extraction. Whatever document the policy in force gives for the package, the evaluator
allows only what a value of allow permits exactly when that value is no array, set or object. -/
theorem extraction_closed_iff (eval : Input → Except String (List Value)) (input : Input)
    (doc : Option Value) (answered : eval input = .ok doc.toList) :
    (∃ result, Evaluate (some eval) input = .returned (some result) ∧
        (result.allowed = true → Permits (allowOf doc))) ↔
      ∀ v, allowOf doc = some v → ¬ Compound v := by
  obtain ⟨reason, evaluated⟩ := Evaluate_eq answered
  rw [evaluated]
  constructor
  · rintro ⟨result, same, closed⟩ v given compound
    obtain rfl := Option.some.inj (Reply.returned.inj same)
    obtain ⟨kept, refused⟩ := extractAllowed_compound compound true
    rw [given] at closed
    exact refused (closed kept)
  · intro scalar
    refine ⟨_, rfl, fun allowed => ?_⟩
    cases given : allowOf doc with
    | none => trivial
    | some v =>
        rw [given] at allowed
        exact permits_of_extractAllowed (scalar v given) allowed

def request : PacketInfo where
  srcMAC := ""
  dstMAC := ""
  srcIP := "10.0.0.1"
  dstIP := "10.0.0.2"
  protocol := "TCP"
  srcPort := 40000
  dstPort := 22
  tcpFlags := ⟨true, false, false, false⟩
  icmpType := none
  icmpCode := none
  fragment := FragmentInfo.none
  packetSize := 60
  ipv6ExtHeaders := []

def requestInput : Input := BuildInput request 1 60 false "" 1 60 1 [] 0

/-- The document of a package whose only rule is allow. -/
def package (v : Value) : Option Value := some (.object [("allow", v)])

theorem false_string_refused :
    ∃ result, Evaluate (some fun _ => .ok (package (.scalar (.str "false"))).toList) requestInput =
        .returned (some result) ∧
      (result.allowed = true → Permits (some (.scalar (.str "false")))) :=
  (extraction_closed_iff (fun _ => .ok (package (.scalar (.str "false"))).toList) requestInput
    (package (.scalar (.str "false"))) rfl).mpr fun v given compound => by
      obtain rfl := Option.some.inj given
      exact compound

/-- An empty set of permissions is an empty array in the result, and the packet passes. -/
theorem empty_array_allowed :
    Evaluate (some fun _ => .ok (package (.array [])).toList) requestInput =
        .returned (some ⟨true, []⟩) ∧
      ¬ Permits (some (.array [])) :=
  ⟨rfl, id⟩

end L3Firewall.Opa.Extraction
