/- Opa/Decision
   source: opa-policies/l3.rego
   digest: The shipped policy decides every input, without conflict and with a reason. -/

import L3Firewall.Opa.Policy

set_option autoImplicit false
set_option relaxedAutoImplicit false

namespace L3Firewall.Opa.Decision

open Foundation.Rego
open Document (Input BuildInput GeoInfo)
open Policy

section Denial

variable {name : String} {bodies : List Bool} {heads : Nat} {messages : List (Option String)}

private theorem denial_explained (headed : 0 < heads) (some_message : messages ≠ [])
    (defined : bodies.any id = true → ∀ m ∈ messages, ∃ s, m = some s ∧ s ≠ "") :
    Explained (denial name bodies heads messages) := by
  refine ⟨headed, ?_, ?_⟩
  · change bodies.any id = true ↔ (if bodies.any id then messages.filterMap id else []) ≠ []
    constructor
    · intro holds
      rw [if_pos holds]
      obtain ⟨m, member⟩ := List.exists_mem_of_ne_nil _ some_message
      obtain ⟨s, rfl, -⟩ := defined holds m member
      exact List.ne_nil_of_mem (List.mem_filterMap.mpr ⟨some s, member, rfl⟩)
    · intro given
      by_contra fails
      exact given (if_neg fails)
  · intro s member
    change s ∈ (if bodies.any id then messages.filterMap id else []) at member
    split at member
    · next holds =>
      obtain ⟨m, inside, same⟩ := List.mem_filterMap.mp member
      obtain ⟨t, rfl, spoken⟩ := defined holds m inside
      exact Option.some.inj same ▸ spoken
    · exact absurd member List.not_mem_nil

private theorem denial_literal (text : String) (spoken : text ≠ "") (headed : 0 < heads) :
    Explained (denial name bodies heads [some text]) := by
  refine denial_explained headed (List.cons_ne_nil _ _) fun _ m member => ?_
  exact ⟨text, List.mem_singleton.mp member, spoken⟩

private theorem denial_template (b : Builtins) {template : String} {c : Char} {rest : List Char}
    {args : List Term} (starts : template.toList = c :: rest) (letter : c ≠ '%')
    (headed : 0 < heads)
    (defined : bodies.any id = true → ∃ values : List Value, args = values.map some) :
    Explained (denial name bodies heads [b.sprintf template args]) := by
  refine denial_explained headed (List.cons_ne_nil _ _) fun holds m member => ?_
  obtain rfl := List.mem_singleton.mp member
  exact b.sprintf_spoken starts letter (defined holds)

end Denial

section Rules

variable (b : Builtins) (c : Constants) (i : Input)

private theorem defined_of_equal {t u : Term} (holds : equal t u = true) :
    ∃ values : List Value, [t] = values.map some := by
  cases t with
  | none => exact absurd holds (by simp [equal])
  | some v => exact ⟨[v], rfl⟩

private theorem defined_of_unequal {t u : Term} (holds : unequal t u = true) :
    ∃ values : List Value, [t] = values.map some := by
  cases t with
  | none => exact absurd holds (by simp [unequal])
  | some v => exact ⟨[v], rfl⟩

private theorem any_singleton {p : Bool} (holds : [p].any id = true) : p = true := by
  simpa using holds

private theorem deny_source_port_explained : Explained (deny_source_port b c i.document) := by
  refine denial_explained (by decide) (List.cons_ne_nil _ _) fun _ m member => ?_
  have given : ∃ values : List Value,
      [i.document.ref ["packet", "src_port"]] = values.map some :=
    ⟨[Document.port i.packet.srcPort], rfl⟩
  rcases List.mem_cons.mp member with rfl | later
  · exact b.sprintf_spoken String.toList_ofList (by decide) given
  · obtain rfl := List.mem_singleton.mp later
    exact b.sprintf_spoken String.toList_ofList (by decide) given

private theorem deny_geoip_blocked_src_explained :
    Explained (deny_geoip_blocked_src b c i.document) := by
  refine denial_template b String.toList_ofList (by decide) (by decide) fun holds => ?_
  obtain ⟨-, listed⟩ := Bool.and_eq_true_iff.mp (any_singleton holds)
  obtain ⟨country, -, same⟩ := List.any_eq_true.mp listed
  exact defined_of_equal same

private theorem deny_geoip_src_not_allowed_explained :
    Explained (deny_geoip_src_not_allowed b c i.document) := by
  refine denial_template b String.toList_ofList (by decide) (by decide) fun holds => ?_
  obtain ⟨known, -⟩ := Bool.and_eq_true_iff.mp (any_singleton holds)
  obtain ⟨-, known⟩ := Bool.and_eq_true_iff.mp known
  exact defined_of_unequal known

private theorem deny_geoip_dst_not_allowed_explained :
    Explained (deny_geoip_dst_not_allowed b c i.document) := by
  refine denial_template b String.toList_ofList (by decide) (by decide) fun holds => ?_
  obtain ⟨known, -⟩ := Bool.and_eq_true_iff.mp (any_singleton holds)
  obtain ⟨-, known⟩ := Bool.and_eq_true_iff.mp known
  exact defined_of_unequal known

private theorem scheduled_explained (name : String) (applies : Value → Bool) {template : String}
    {ch : Char} {rest : List Char} (starts : template.toList = ch :: rest) (letter : ch ≠ '%') :
    Explained (scheduled b c i.document name applies template) := by
  have said (rule : TimeRule) : ∃ s, b.sprintf template
      [i.document.ref ["packet", "dst_port"], rule.value.field "start_hour",
        rule.value.field "end_hour"] = some s ∧ s ≠ "" :=
    b.sprintf_spoken starts letter
      ⟨[Document.port i.packet.dstPort, num rule.startHour, num rule.endHour], rfl⟩
  have entry {v : Value} (member : v ∈ elements (schedule c)) :
      ∃ rule ∈ c.timeBasedRules, v = rule.value := by
    obtain ⟨rule, inside, rfl⟩ := List.mem_map.mp member
    exact ⟨rule, inside, rfl⟩
  refine ⟨Nat.one_pos, ?_, ?_⟩
  · constructor
    · intro holds
      obtain ⟨v, member, fits⟩ := List.any_eq_true.mp (any_singleton holds)
      obtain ⟨rule, -, rfl⟩ := entry member
      obtain ⟨s, text, -⟩ := said rule
      have reason : s ∈ (scheduled b c i.document name applies template).reasons :=
        List.mem_filterMap.mpr ⟨_, member, by rw [if_pos fits, text]⟩
      exact List.ne_nil_of_mem reason
    · intro given
      obtain ⟨s, reason⟩ := List.exists_mem_of_ne_nil _ given
      obtain ⟨v, member, text⟩ := List.mem_filterMap.mp reason
      split at text
      · next fits =>
        have any := List.any_eq_true.mpr ⟨v, member, fits⟩
        simp only [DenyRule.holds, scheduled, any, List.any_cons, List.any_nil, id, Bool.or_false]
      · exact absurd text nofun
  · intro s reason
    obtain ⟨v, member, text⟩ := List.mem_filterMap.mp reason
    obtain ⟨rule, -, rfl⟩ := entry member
    obtain ⟨t, said, spoken⟩ := said rule
    split at text
    · rw [said] at text
      exact Option.some.inj text ▸ spoken
    · exact absurd text nofun

theorem denyRules_explained : ∀ r ∈ denyRules b c i.document, Explained r := by
  have reference (path : List String) {v : Value} (found : i.document.ref path = some v) :
      ∃ values : List Value, [i.document.ref path] = values.map some := ⟨[v], by rw [found]; rfl⟩
  simp only [denyRules, List.forall_mem_cons]
  refine ⟨?_, ?_, ?_, ?_, ?_, ?_, ?_, ?_, ?_, ?_, ?_, ?_, ?_, ?_, ?_, ?_, ?_, ?_, ?_, ?_, ?_, nofun⟩
  · exact denial_literal _ (by decide) (by decide)
  · exact denial_literal _ (by decide) (by decide)
  · exact denial_literal _ (by decide) (by decide)
  · exact denial_literal _ (by decide) (by decide)
  · exact denial_literal _ (by decide) (by decide)
  · exact denial_template b String.toList_ofList (by decide) (by decide) fun _ =>
      ⟨[Document.port i.packet.dstPort, str i.packet.protocol], rfl⟩
  · exact denial_template b String.toList_ofList (by decide) (by decide) fun _ =>
      ⟨[Document.optional i.packet.icmpType, Document.optional i.packet.icmpCode], rfl⟩
  · exact denial_literal _ (by decide) (by decide)
  · exact denial_literal _ (by decide) (by decide)
  · exact denial_template b String.toList_ofList (by decide) (by decide) fun _ => reference _ rfl
  · exact denial_template b String.toList_ofList (by decide) (by decide) fun _ => reference _ rfl
  · exact denial_template b String.toList_ofList (by decide) (by decide) fun _ => reference _ rfl
  · exact denial_literal _ (by decide) (by decide)
  · exact deny_source_port_explained b c i
  · exact denial_template b String.toList_ofList (by decide) (by decide) fun _ => reference _ rfl
  · exact denial_template b String.toList_ofList (by decide) (by decide) fun _ =>
      ⟨[num i.rate.srcPortPPS, Document.port i.packet.dstPort], rfl⟩
  · exact deny_geoip_blocked_src_explained b c i
  · exact deny_geoip_src_not_allowed_explained b c i
  · exact deny_geoip_dst_not_allowed_explained b c i
  · exact scheduled_explained b c i _ _ String.toList_ofList (by decide)
  · exact scheduled_explained b c i _ _ String.toList_ofList (by decide)

end Rules

section Decision

variable (b : Builtins) (c : Constants) (i : Input)

def Denied : Prop := ∃ r ∈ denyRules b c i.document, r.holds = true

instance : Decidable (Denied b c i) := inferInstanceAs (Decidable (∃ r ∈ _, _))

theorem query_eq : ∃ d, query b c i = .ok d ∧ d = document (denyRules b c i.document) ∧
    d.allow = .value (.bool (!decide (Denied b c i))) := by
  have explained := denyRules_explained b c i
  refine ⟨_, evaluate_ok explained, rfl, ?_⟩
  by_cases denied : Denied b c i
  · rw [decide_eq_true denied]
    exact allow_of_denied explained denied
  · rw [decide_eq_false denied]
    exact allow_of_not_denied fun r member =>
      Bool.eq_false_iff.mpr fun holds => denied ⟨r, member, holds⟩

end Decision

/-- For every packet, state and setting of the constants, and with any country added
afterwards, the query has no conflict and allow is one Boolean. It is false exactly when
a denial holds, exactly when there are reasons, and exactly when a reason is reported,
which then is the least of them. -/
theorem decision_total (b : Builtins) (c : Constants) (pi : Packet.Parser.PacketInfo)
    (pps bps : ℚ) (established : Bool) (tcpState : String) (portPPS portBPS newConnRate : ℚ)
    (recentPorts : List UInt16) (now : Conntrack.FlowTable.Time) (geo : GeoInfo) :
    let i := { BuildInput pi pps bps established tcpState portPPS portBPS newConnRate recentPorts
      now with geo := geo }
    ∃ d allowed, query b c i = .ok d ∧ d.allow = .value (.bool allowed) ∧
      (allowed = false ↔ ∃ r ∈ denyRules b c i.document, r.holds = true) ∧
      (allowed = false ↔ d.denyReasons ≠ []) ∧
      (allowed = false ↔ d.reason ≠ .undefined) ∧
      (allowed = false → ∃ s ∈ d.denyReasons,
        (∀ t ∈ d.denyReasons, s ≤ t) ∧ d.reason = .value (.str s)) := by
  intro i
  have explained := denyRules_explained b c i
  obtain ⟨d, queried, rfl, allow⟩ := query_eq b c i
  have reasons := denied_iff_reasons explained
  have verdict : (!decide (Denied b c i)) = false ↔ Denied b c i := by simp
  have least (given : (document (denyRules b c i.document)).denyReasons ≠ []) :=
    reason_least explained given
  refine ⟨_, _, queried, allow, verdict, verdict.trans reasons,
    (verdict.trans reasons).trans ⟨fun given => ?_, fun defined => ?_⟩, fun denied => ?_⟩
  · obtain ⟨s, -, -, -, reported⟩ := least given
    rw [reported]
    exact nofun
  · intro none_given
    exact defined (reason_undefined none_given).2
  · obtain ⟨s, member, smallest, -, reported⟩ := least (reasons.mp (verdict.mp denied))
    exact ⟨s, member, smallest, reported⟩

end L3Firewall.Opa.Decision
