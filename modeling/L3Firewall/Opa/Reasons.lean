/- Opa/Reasons
   source: opa-policies/l3.rego
   digest: Which reasons name a transport protocol, and when it is that of the packet. -/

import L3Firewall.Opa.Denials

set_option autoImplicit false
set_option relaxedAutoImplicit false

namespace L3Firewall.Opa.Reasons

open Foundation.Rego
open Document (Input BuildInput GeoInfo)
open Packet.Parser (PacketInfo FragmentInfo)
open Conntrack.FlowTable (Time)
open Policy
open Decision (query_eq denyRules_explained)
open Denials

section Names

def openings : List (List Char) :=
  ["blocked port ".toList, "blocked source port ".toList, "blocked protocol ".toList]

/-- A reason names a protocol in the brackets after a port, or as the protocol that is blocked. -/
def Names (p s : String) : Prop :=
  ("blocked port ".toList <+: s.toList ∨ "blocked source port ".toList <+: s.toList) ∧
      (" (" ++ p ++ ")").toList <:+ s.toList ∨
    s = "blocked protocol " ++ p

private theorem Names.opening {p s : String} (named : Names p s) :
    ∃ o ∈ openings, o <+: s.toList := by
  rcases named with ⟨opens | opens, -⟩ | rfl
  · exact ⟨_, List.mem_cons_self, opens⟩
  · exact ⟨_, List.mem_cons_of_mem _ List.mem_cons_self, opens⟩
  · refine ⟨"blocked protocol ".toList, by simp [openings], ?_⟩
    rw [String.toList_append]
    exact List.prefix_append _ _

def Apart (l o : List Char) : Prop := ¬ l <+: o ∧ ¬ o <+: l

instance (l o : List Char) : Decidable (Apart l o) := inferInstanceAs (Decidable (_ ∧ _))

private theorem Apart.elim {l o text : List Char} (apart : Apart l o) (opens : l <+: text)
    (opens' : o <+: text) : False := by
  rcases List.prefix_or_prefix_of_prefix opens opens' with shorter | longer
  · exact apart.1 shorter
  · exact apart.2 longer

/-- A beginning that no reason with a protocol has. -/
def Silent (l : List Char) : Prop := ∀ o ∈ openings, Apart l o

instance (l : List Char) : Decidable (Silent l) := inferInstanceAs (Decidable (∀ o ∈ _, _))

private theorem silent_of_first {c : Char} (other : c ≠ 'b') : Silent [c] := by
  have initial : ∀ o ∈ openings, ∃ rest, o = 'b' :: rest := by
    simp only [openings, List.forall_mem_cons]
    exact ⟨⟨_, String.toList_ofList⟩, ⟨_, String.toList_ofList⟩, ⟨_, String.toList_ofList⟩, by simp⟩
  intro o listed
  obtain ⟨rest, rfl⟩ := initial o listed
  constructor
  · exact fun opens => other (List.cons_prefix_cons.mp opens).1
  · exact fun opens => other (List.cons_prefix_cons.mp opens).1.symm

private theorem Silent.names {l : List Char} (silent : Silent l) {p s : String}
    (opens : l <+: s.toList) :
    ¬ Names p s := by
  intro named
  obtain ⟨o, listed, begins⟩ := named.opening
  exact (silent o listed).elim opens begins

end Names

section Denials

variable {name : String} {bodies : List Bool} {heads : Nat} {messages : List (Option String)}

private theorem of_mem_reasons {s : String}
    (given : s ∈ (denial name bodies heads messages).reasons) :
    bodies.any id = true ∧ some s ∈ messages := by
  change s ∈ (if bodies.any id then messages.filterMap id else []) at given
  split at given
  · next holds =>
    obtain ⟨m, listed, same⟩ := List.mem_filterMap.mp given
    exact ⟨holds, same ▸ listed⟩
  · exact absurd given List.not_mem_nil

def Unnamed (r : DenyRule) : Prop := ∀ p, ∀ s ∈ r.reasons, ¬ Names p s

private theorem unnamed_literal {text : String} {first : Char} {rest : List Char}
    (starts : text.toList = first :: rest) (other : first ≠ 'b') :
    Unnamed (denial name bodies heads [some text]) := by
  intro p s given
  obtain ⟨-, listed⟩ := of_mem_reasons given
  obtain rfl := Option.some.inj (List.mem_singleton.mp listed)
  exact (silent_of_first other).names ⟨rest, starts.symm⟩

private theorem unnamed_template (b : Builtins) {template : String} {args : List Term}
    (l rest : List Char) (starts : template.toList = l ++ rest) (plain : '%' ∉ l)
    (silent : Silent l) : Unnamed (denial name bodies heads [b.sprintf template args]) := by
  intro p s given
  obtain ⟨-, listed⟩ := of_mem_reasons given
  exact silent.names (b.sprintf_opens starts plain (List.mem_singleton.mp listed).symm)

private theorem unnamed_scheduled (b : Builtins) (c : Constants) (input : Value)
    (applies : Value → Bool)
    {template : String} (l rest : List Char) (starts : template.toList = l ++ rest)
    (plain : '%' ∉ l) (silent : Silent l) :
    Unnamed (scheduled b c input name applies template) := by
  intro p s given
  obtain ⟨rule, -, said⟩ := List.mem_filterMap.mp given
  split at said
  · exact silent.names (b.sprintf_opens starts plain said)
  · exact absurd said (by simp)

end Denials

section Rules

variable (b : Builtins) (c : Constants) (i : Input)

def Transport (p : String) : Prop := p = "TCP" ∨ p = "UDP"

/-- The protocol that a reason names, if any, is that of the packet. -/
def Agrees (s : String) : Prop := ∀ p, Transport p → Names p s → i.packet.protocol = p

variable {b c i}

private theorem transport_unique {p q : String} {l : List Char} (first : Transport p)
    (second : Transport q)
    (ends : (" (" ++ p ++ ")").toList <:+ l) (ends' : (" (" ++ q ++ ")").toList <:+ l) : p = q := by
  rcases first with rfl | rfl
  · rcases second with rfl | rfl
    · rfl
    · rcases List.suffix_or_suffix_of_suffix ends ends' with within | within
      · exact absurd within (by decide)
      · exact absurd within (by decide)
  · rcases second with rfl | rfl
    · rcases List.suffix_or_suffix_of_suffix ends ends' with within | within
      · exact absurd within (by decide)
      · exact absurd within (by decide)
    · rfl

private theorem deny_blocked_port_agrees {s : String}
    (given : s ∈ (deny_blocked_port b c i.document).reasons) : Agrees i s := by
  obtain ⟨holds, listed⟩ := of_mem_reasons given
  have transport : Transport i.packet.protocol := by
    simp only [List.any_cons, List.any_nil, id, Bool.or_false, Bool.or_eq_true, Bool.and_eq_true,
      ref_protocol, equal_str, decide_eq_true_eq] at holds
    exact holds.imp And.left And.left
  have said := (List.mem_singleton.mp listed).trans
    (b.sprintf_of_defined "blocked port %v (%s)"
      [Document.port i.packet.dstPort, str i.packet.protocol])
  have chars := (congrArg String.toList (Option.some.inj said)).trans String.toList_ofList
  have brackets : " (".toList ++ (i.packet.protocol.toList ++ ")".toList) =
      (" (" ++ i.packet.protocol ++ ")").toList := by
    rw [String.toList_append, String.toList_append, List.append_assoc]
  have text : s.toList = "blocked port ".toList ++ ((b.numberText i.packet.dstPort.toNat).toList ++
      (" (" ++ i.packet.protocol ++ ")").toList) := brackets ▸ chars
  intro p named other
  rcases other with ⟨-, ends⟩ | same
  · refine transport_unique transport named ?_ ends
    rw [text, ← List.append_assoc]
    exact List.suffix_append _ _
  · have opens : "blocked protocol ".toList <+: s.toList := by
      rw [same, String.toList_append]
      exact List.prefix_append _ _
    rw [text] at opens
    have apart : Apart "blocked port ".toList "blocked protocol ".toList := by decide
    exact (apart.elim (List.prefix_append _ _) opens).elim

private theorem deny_blocked_protocol_agrees {s : String}
    (given : s ∈ (deny_blocked_protocol b c i.document).reasons) : Agrees i s := by
  obtain ⟨-, listed⟩ := of_mem_reasons given
  have said := (List.mem_singleton.mp listed).trans
    (b.sprintf_verb "blocked protocol ".toList [] rfl (by decide) List.not_mem_nil
      (str i.packet.protocol))
  have text : s.toList = "blocked protocol ".toList ++ i.packet.protocol.toList :=
    ((congrArg String.toList (Option.some.inj said)).trans String.toList_ofList).trans
      (List.append_nil _)
  intro p named other
  rcases other with ⟨opens | opens, -⟩ | same
  · rw [text] at opens
    have apart : Apart "blocked protocol ".toList "blocked port ".toList := by decide
    exact (apart.elim (List.prefix_append _ _) opens).elim
  · rw [text] at opens
    have apart : Apart "blocked protocol ".toList "blocked source port ".toList := by decide
    exact (apart.elim (List.prefix_append _ _) opens).elim
  · have lists := congrArg String.toList same
    rw [text, String.toList_append, List.append_cancel_left_eq] at lists
    exact String.toList_injective lists

/-- A packet of a transport protocol from a blocked port. -/
def FromBlockedPort (b : Builtins) (c : Constants) (i : Input) : Prop :=
  Transport i.packet.protocol ∧
    port_in_ranges b (some (Document.port i.packet.srcPort)) (ports c.blockedPorts) = true

private theorem deny_source_port_iff :
    (deny_source_port b c i.document).holds = true ↔ FromBlockedPort b c i := by
  simp only [deny_source_port, denial_holds, List.any_cons, List.any_nil, id, Bool.or_false,
    Bool.or_eq_true, Bool.and_eq_true, ref_protocol, ref_src_port, equal_str, decide_eq_true_eq,
    FromBlockedPort, Transport, or_and_right]

private theorem source_port_named (blocked : FromBlockedPort b c i) {p : String}
    (transport : Transport p) :
    ∃ s ∈ (deny_source_port b c i.document).reasons, Names p s := by
  have holds := deny_source_port_iff.mpr blocked
  have reasons : (deny_source_port b c i.document).reasons =
      [b.sprintf "blocked source port %v (TCP)" [i.document.ref ["packet", "src_port"]],
        b.sprintf "blocked source port %v (UDP)" [i.document.ref ["packet", "src_port"]]].filterMap
          id := if_pos holds
  have named (l rest : List Char) (opens : "blocked source port ".toList = l)
      (ends : (" (" ++ p ++ ")").toList = rest) :
      Names p (String.ofList (l ++ (b.text (Document.port i.packet.srcPort)).toList ++ rest)) := by
    refine .inl ⟨.inr ?_, ?_⟩
    · rw [opens, String.toList_ofList, List.append_assoc]
      exact List.prefix_append _ _
    · rw [ends, String.toList_ofList]
      exact List.suffix_append _ _
  rw [reasons]
  rcases transport with rfl | rfl
  · refine ⟨_, List.mem_filterMap.mpr ⟨_, List.mem_cons_self, ?_⟩, named _ " (TCP)".toList rfl rfl⟩
    exact b.sprintf_verb _ _ rfl (by decide) (by decide) (Document.port i.packet.srcPort)
  · refine ⟨_, List.mem_filterMap.mpr ⟨_, List.mem_cons_of_mem _ List.mem_cons_self, ?_⟩,
      named _ " (UDP)".toList rfl rfl⟩
    exact b.sprintf_verb _ _ rfl (by decide) (by decide) (Document.port i.packet.srcPort)

private theorem denyRules_agree (free : ¬ FromBlockedPort b c i) :
    ∀ r ∈ denyRules b c i.document, ∀ s ∈ r.reasons, Agrees i s := by
  have unnamed {r : DenyRule} (silent : Unnamed r) : ∀ s ∈ r.reasons, Agrees i s :=
    fun s given p _ named => absurd named (silent p s given)
  simp only [denyRules, List.forall_mem_cons]
  refine ⟨?_, ?_, ?_, ?_, ?_, ?_, ?_, ?_, ?_, ?_, ?_, ?_, ?_, ?_, ?_, ?_, ?_, ?_, ?_, ?_, ?_,
    by simp⟩
  · exact unnamed (unnamed_literal String.toList_ofList (by decide))
  · exact unnamed (unnamed_literal String.toList_ofList (by decide))
  · exact unnamed (unnamed_literal String.toList_ofList (by decide))
  · exact unnamed (unnamed_literal String.toList_ofList (by decide))
  · exact unnamed (unnamed_literal String.toList_ofList (by decide))
  · exact fun s given => deny_blocked_port_agrees given
  · exact unnamed (unnamed_template b "blocked ICMP type=".toList _ rfl (by decide) (by decide))
  · exact unnamed (unnamed_literal String.toList_ofList (by decide))
  · exact unnamed (unnamed_literal String.toList_ofList (by decide))
  · exact fun s given => deny_blocked_protocol_agrees given
  · exact unnamed (unnamed_template b ['r'] _ String.toList_ofList (by decide)
      (silent_of_first (by decide)))
  · exact unnamed (unnamed_template b ['f'] _ String.toList_ofList (by decide)
      (silent_of_first (by decide)))
  · exact unnamed (unnamed_literal String.toList_ofList (by decide))
  · exact fun s given => absurd (deny_source_port_iff.mp (of_mem_reasons given).1) free
  · exact unnamed (unnamed_template b ['n'] _ String.toList_ofList (by decide)
      (silent_of_first (by decide)))
  · exact unnamed (unnamed_template b ['p'] _ String.toList_ofList (by decide)
      (silent_of_first (by decide)))
  · exact unnamed (unnamed_template b "blocked source country: ".toList _ rfl (by decide)
      (by decide))
  · exact unnamed (unnamed_template b ['s'] _ String.toList_ofList (by decide)
      (silent_of_first (by decide)))
  · exact unnamed (unnamed_template b ['d'] _ String.toList_ofList (by decide)
      (silent_of_first (by decide)))
  · exact unnamed (unnamed_scheduled b c _ _ ['t'] _ String.toList_ofList (by decide)
      (silent_of_first (by decide)))
  · exact unnamed (unnamed_scheduled b c _ _ ['t'] _ String.toList_ofList (by decide)
      (silent_of_first (by decide)))

end Rules

/-- Every reason belongs to a rule that holds and names no protocol but that of the packet, and
neither does the one that is reported. -/
def Truthful (b : Builtins) (c : Constants) (i : Input) (d : Document) : Prop :=
  (∀ s ∈ d.denyReasons,
    (∃ r ∈ denyRules b c i.document, r.holds = true ∧ s ∈ r.reasons) ∧ Agrees i s) ∧
  ∀ s, d.reason = .value (.str s) → Agrees i s

private theorem truthful_iff (b : Builtins) (c : Constants) (i : Input) :
    Truthful b c i (document (denyRules b c i.document)) ↔ ¬ FromBlockedPort b c i := by
  constructor
  · rintro ⟨stated, -⟩ blocked
    have agreed {p : String} (transport : Transport p) : i.packet.protocol = p := by
      obtain ⟨s, given, named⟩ := source_port_named blocked transport
      have reason : s ∈ (document (denyRules b c i.document)).denyReasons :=
        List.mem_flatMap.mpr ⟨deny_source_port b c i.document, by simp [denyRules], given⟩
      exact (stated s reason).2 p transport named
    have both : "TCP" = "UDP" := (agreed (.inl rfl)).symm.trans (agreed (.inr rfl))
    exact absurd both (by decide)
  · intro free
    have explained := denyRules_explained b c i
    have stated : ∀ s ∈ (document (denyRules b c i.document)).denyReasons,
        (∃ r ∈ denyRules b c i.document, r.holds = true ∧ s ∈ r.reasons) ∧ Agrees i s := by
      intro s given
      obtain ⟨r, listed, own⟩ := List.mem_flatMap.mp given
      have holds := (explained r listed).explained.mpr (List.ne_nil_of_mem own)
      exact ⟨⟨r, listed, holds, own⟩, denyRules_agree free r listed s own⟩
    refine ⟨stated, fun s reported => ?_⟩
    rcases eq_or_ne (document (denyRules b c i.document)).denyReasons [] with empty | some_given
    · rw [(reason_undefined empty).2] at reported
      exact absurd reported (by simp)
    · obtain ⟨t, given, -, -, least⟩ := reason_least explained some_given
      rw [least, Outcome.value.injEq, Scalar.str.injEq] at reported
      exact reported ▸ (stated t given).2

/-- Reasons. For every packet, state, country and setting of the constants the reasons are true
of the packet, down to the transport protocol that they name, exactly when it is not a TCP or
UDP packet from a blocked port. -/
theorem reasons_truthful_iff (b : Builtins) (c : Constants) (pi : PacketInfo) (pps bps : ℚ)
    (established : Bool) (tcpState : String) (portPPS portBPS newConnRate : ℚ)
    (recentPorts : List UInt16) (now : Time) (geo : GeoInfo) :
    let i := { BuildInput pi pps bps established tcpState portPPS portBPS newConnRate recentPorts
      now with geo := geo }
    ∃ d, query b c i = .ok d ∧
      (Truthful b c i d ↔
        ¬ ((pi.protocol = "TCP" ∨ pi.protocol = "UDP") ∧
          port_in_ranges b (some (Document.port pi.srcPort)) (ports c.blockedPorts) = true)) := by
  intro i
  obtain ⟨d, queried, rfl, -⟩ := query_eq b c i
  exact ⟨_, queried, truthful_iff b c i⟩

/-- Numbers are written in decimal and every address is in every network. -/
def decimal : Builtins where
  cidrContains _ _ := some true
  toNumber _ := none
  numberText q := Nat.repr q.num.toNat
  termText _ := ""

def fromShell : PacketInfo where
  srcMAC := ""
  dstMAC := ""
  srcIP := "10.0.0.1"
  dstIP := "10.0.0.2"
  protocol := "UDP"
  srcPort := 22
  dstPort := 40000
  tcpFlags := ⟨false, false, false, false⟩
  icmpType := none
  icmpCode := none
  fragment := FragmentInfo.none
  packetSize := 60
  ipv6ExtHeaders := []

def fromShellInput : Input := BuildInput fromShell 1 60 false "" 1 60 1 [] 0

/-- A UDP packet from port 22 is reported as a TCP packet. -/
theorem udp_reported_as_tcp :
    fromShellInput.packet.protocol = "UDP" ∧
      ∃ d, query decimal shipped fromShellInput = .ok d ∧
        d.denyReasons = ["blocked source port 22 (TCP)", "blocked source port 22 (UDP)"] ∧
        d.reason = .value (.str "blocked source port 22 (TCP)") ∧
        ¬ Truthful decimal shipped fromShellInput d := by
  obtain ⟨d, queried, rfl, -⟩ := query_eq decimal shipped fromShellInput
  have blocked : FromBlockedPort decimal shipped fromShellInput := ⟨.inr rfl, by decide +kernel⟩
  refine ⟨rfl, _, queried, by decide +kernel, by decide +kernel, fun truthful => ?_⟩
  exact (truthful_iff decimal shipped fromShellInput).mp truthful blocked

end L3Firewall.Opa.Reasons
