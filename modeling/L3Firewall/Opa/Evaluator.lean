/- Opa/Evaluator
   source: internal/opa/embed.go, internal/opa/result.go
   digest: The result of an evaluation and how it is extracted from the queried document. -/

import L3Firewall.Foundation.Float64
import L3Firewall.Foundation.Recover
import L3Firewall.Opa.Decision

set_option autoImplicit false
set_option relaxedAutoImplicit false

namespace L3Firewall.Opa.Evaluator

open Foundation.Float64 (ParseFloat)
open Foundation.Recover (Reply)
open Foundation.Rego (Builtins Value Term Outcome)
open Document (Input)
open Policy (Constants query)
open Decision (Denied query_eq)

/-- Strings whose length in bytes matters, as their bytes. -/
abbrev Text := List UInt8

def text (s : String) : Text := s.toList.flatMap String.utf8EncodeChar

structure Result where
  allowed : Bool
  reason : Text
  deriving DecidableEq

/-- The type switch on a value of allow. Types without a case leave what was there, and so
does a number too large for a double. -/
def extractAllowed (before : Bool) : Value → Bool
  | .scalar (.bool a) => a
  | .scalar (.str s) => decide (s = "true") || decide (s = "1")
  | .scalar (.num q) => (ParseFloat q).elim before fun n => decide (n ≠ 0)
  | .scalar .null => false
  | .array _ | .set _ | .object _ => before

def extractReason (before : Text) : Value → Text
  | .scalar (.str s) => text s
  | _ => before

/-- One expression value of a result set; only objects are looked at. -/
def extract (result : Result) (v : Value) : Result where
  allowed := ((v.field "allow").map (extractAllowed result.allowed)).getD result.allowed
  reason := ((v.field "reason").map (extractReason result.reason)).getD result.reason

/-- `prepared` is absent before the first rebuild. A query gives the expression values of
its result set, or fails, with a timeout or an evaluation error. -/
def Evaluate (prepared : Option (Input → Except String (List Value))) (input : Input) :
    Reply (Option Result) :=
  match prepared with
  | none => .failed "evaluator not initialized"
  | some eval =>
      match eval input with
      | .error err => .failed ("OPA eval: " ++ err)
      | .ok values => .returned (some (values.foldl extract ⟨true, []⟩))

/-- A rule that is undefined is no field of its package's document. -/
def defined (name : String) : Outcome → List (String × Value)
  | .value s => [(name, .scalar s)]
  | .undefined | .conflict => []

def packageValue (d : Foundation.Rego.Document) : Value :=
  .object (defined "allow" d.allow ++ defined "reason" d.reason ++
    defined "deny_reason" d.denyReason ++
    [("deny_reasons", .set (d.denyReasons.map Foundation.Rego.Scalar.str))] ++
    d.denials.flatMap fun e => defined e.1 e.2)

/-- The query of the shipped policy under a setting of its constants. -/
def decisionQuery (b : Builtins) (c : Constants) (input : Input) : Except String (List Value) :=
  (query b c input).map fun d => [packageValue d]

theorem evaluate_decisionQuery (b : Builtins) (c : Constants) (input : Input) :
    ∃ reason, Evaluate (some (decisionQuery b c)) input =
      .returned (some ⟨!decide (Denied b c input), reason⟩) := by
  obtain ⟨d, queried, -, allow⟩ := query_eq b c input
  have answered : decisionQuery b c input = .ok [packageValue d] := by
    rw [decisionQuery, queried]
    rfl
  have allowed : (extract ⟨true, []⟩ (packageValue d)).allowed = !decide (Denied b c input) := by
    have found : (packageValue d).field "allow" =
        some (.scalar (.bool (!decide (Denied b c input)))) := by
      rw [packageValue, allow]
      rfl
    change (((packageValue d).field "allow").map _).getD _ = _
    rw [found]
    rfl
  refine ⟨(extract ⟨true, []⟩ (packageValue d)).reason, ?_⟩
  rw [← allowed]
  simp only [Evaluate, answered, List.foldl_cons, List.foldl_nil]

end L3Firewall.Opa.Evaluator
