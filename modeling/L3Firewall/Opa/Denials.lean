/- Opa/Denials
   source: opa-policies/l3.rego
   digest: Inputs that the shipped policy surely denies, and inputs that it surely lets pass. -/

import L3Firewall.Net.Address
import L3Firewall.Opa.Decision
import Mathlib.Algebra.Order.Ring.Rat

set_option autoImplicit false
set_option relaxedAutoImplicit false

namespace L3Firewall.Opa.Denials

open Foundation.Rego
open Net.Address (IP)
open Document (Input)
open Policy
open Decision (Denied)

variable {b : Builtins} {c : Constants} {i : Input}

section References

@[simp] theorem ref_protocol :
    i.document.ref ["packet", "protocol"] = some (str i.packet.protocol) := rfl

@[simp] theorem ref_src_ip : i.document.ref ["packet", "src_ip"] = some (str i.packet.srcIP) := rfl

@[simp] theorem ref_dst_ip : i.document.ref ["packet", "dst_ip"] = some (str i.packet.dstIP) := rfl

@[simp] theorem ref_src_port :
    i.document.ref ["packet", "src_port"] = some (Document.port i.packet.srcPort) := rfl

@[simp] theorem ref_dst_port :
    i.document.ref ["packet", "dst_port"] = some (Document.port i.packet.dstPort) := rfl

@[simp] theorem ref_tcp_flags : i.document.ref ["packet", "tcp_flags"] =
    some (Document.TCPFlags.document i.packet.tcpFlags) := rfl

@[simp] theorem ref_syn :
    i.document.ref ["packet", "tcp_flags", "syn"] = some (bool i.packet.tcpFlags.syn) := rfl

@[simp] theorem ref_ack :
    i.document.ref ["packet", "tcp_flags", "ack"] = some (bool i.packet.tcpFlags.ack) := rfl

@[simp] theorem ref_rst :
    i.document.ref ["packet", "tcp_flags", "rst"] = some (bool i.packet.tcpFlags.rst) := rfl

@[simp] theorem ref_established : i.document.ref ["connection", "established"] =
    some (bool i.connection.established) := rfl

@[simp] theorem ref_packets_in_flow : i.document.ref ["connection", "packets_in_flow"] =
    some (num i.connection.packetsInFlow) := rfl

@[simp] theorem ref_l4_incomplete : i.document.ref ["packet", "fragment", "l4_incomplete"] =
    some (bool i.packet.fragment.l4Incomplete) := rfl

@[simp] theorem ref_src_ip_pps :
    i.document.ref ["rate", "src_ip_pps"] = some (num i.rate.srcIPpps) := rfl

@[simp] theorem ref_src_port_pps :
    i.document.ref ["rate", "src_port_pps"] = some (num i.rate.srcPortPPS) := rfl

@[simp] theorem ref_new_conns_per_sec :
    i.document.ref ["rate", "new_conns_per_sec"] = some (num i.rate.newConnsPerSec) := rfl

@[simp] theorem equal_bool (p q : Bool) :
    equal (some (bool p)) (some (bool q)) = decide (p = q) := by
  change decide (Scalar.bool p = Scalar.bool q) = _
  simp only [Scalar.bool.injEq]

@[simp] theorem equal_str (s t : String) :
    equal (some (str s)) (some (str t)) = decide (s = t) := by
  change decide (Scalar.str s = Scalar.str t) = _
  simp only [Scalar.str.injEq]

@[simp] theorem equal_num (p q : ℚ) : equal (some (num p)) (some (num q)) = decide (p = q) := by
  change decide (Scalar.num p = Scalar.num q) = _
  simp only [Scalar.num.injEq]

@[simp] theorem greater_num (p q : ℚ) :
    greater (some (num p)) (some (num q)) = decide (q < p) := rfl

@[simp] theorem denial_holds (name : String) (bodies : List Bool) (heads : Nat)
    (messages : List (Option String)) :
    (denial name bodies heads messages).holds = bodies.any id := rfl

end References

section Denied

theorem denied_of_incomplete (marked : i.packet.fragment.l4Incomplete = true) : Denied b c i := by
  refine ⟨deny_incomplete_fragment i.document, by simp [denyRules], ?_⟩
  simp [deny_incomplete_fragment, marked]

private theorem port_in_ranges_of_mem {p : UInt16} {specs : List PortSpec}
    (listed : PortSpec.number p.toNat ∈ specs) :
    port_in_ranges b (some (Document.port p)) (ports specs) = true := by
  have member : Scalar.num p.toNat ∈ specs.map PortSpec.scalar :=
    List.mem_map.mpr ⟨_, listed, rfl⟩
  have found : Foundation.Rego.member (ports specs) (some (Document.port p)) = true :=
    decide_eq_true member
  rw [port_in_ranges, found, Bool.or_true]

theorem denied_of_port (transport : i.packet.protocol = "TCP" ∨ i.packet.protocol = "UDP")
    (listed : PortSpec.number i.packet.srcPort.toNat ∈ c.blockedPorts ∨
      PortSpec.number i.packet.dstPort.toNat ∈ c.blockedPorts) : Denied b c i := by
  rcases listed with source | destination
  · refine ⟨deny_source_port b c i.document, by simp [denyRules], ?_⟩
    have inside := port_in_ranges_of_mem (b := b) source
    rcases transport with tcp | udp
    · simp [deny_source_port, tcp, inside]
    · simp [deny_source_port, udp, inside]
  · refine ⟨deny_blocked_port b c i.document, by simp [denyRules], ?_⟩
    have inside := port_in_ranges_of_mem (b := b) destination
    rcases transport with tcp | udp
    · simp [deny_blocked_port, tcp, inside]
    · simp [deny_blocked_port, udp, inside]

theorem ref_recent_ports : i.document.ref ["connection", "recent_ports"] =
    some (i.connection.recentPorts.elim null fun ports => .array (ports.map Document.port)) := by
  rcases i with ⟨_, ⟨_, _, _, _, _ | ports⟩, _⟩ <;> rfl

theorem deny_port_scan_iff {ports : List UInt16}
    (recent : i.connection.recentPorts = if 0 < ports.length then some ports else none)
    (positive : 0 < c.portScanThreshold) :
    (deny_port_scan c i.document).holds = true ↔
      c.enablePortScan = true ∧ i.connection.packetsInFlow = 1 ∧ i.packet.tcpFlags.syn = true ∧
        i.packet.tcpFlags.ack = false ∧ c.portScanThreshold ≤ ports.length := by
  have reached : atLeast (count (i.document.ref ["connection", "recent_ports"]))
      (some (num c.portScanThreshold)) = true ↔ c.portScanThreshold ≤ ports.length := by
    by_cases some_left : 0 < ports.length
    · have counted : count (i.document.ref ["connection", "recent_ports"]) =
          some (num ports.length) := by
        rw [ref_recent_ports, recent, if_pos some_left]
        simp [count]
      rw [counted]
      simp [atLeast, atMost, num, Scalar.lt]
    · have uncounted : count (i.document.ref ["connection", "recent_ports"]) = none := by
        rw [ref_recent_ports, recent, if_neg some_left]
        rfl
      have empty : ports.length = 0 := by omega
      rw [uncounted, empty]
      simp [atLeast, atMost, positive]
  simp only [deny_port_scan, denial_holds, List.any_cons, List.any_nil, Bool.or_false, id_eq,
    Bool.and_eq_true, reached]
  simp [and_assoc]

theorem deny_state_violation_iff : (deny_state_violation c i.document).holds = true ↔
    c.enableStateful = true ∧ i.packet.protocol = "TCP" ∧ i.packet.tcpFlags.rst = true ∧
      i.connection.established = false := by
  simp [deny_state_violation, and_assoc]

end Denied

section Passed

/-- Every address lies in the network of all addresses of its family; an IPv4-mapped
address is written as an IPv4 address. -/
def AllNetworks (b : Builtins) : Prop :=
  ∀ a : IP, (IP.To4 a = none → b.cidrContains "::/0" (IP.String a) = some true) ∧
    ∀ v, IP.To4 a = some v → b.cidrContains "0.0.0.0/0" (IP.String a) = some true

private theorem in_subnets_of_contains {cidr ip : String} {subnets : List String}
    (listed : cidr ∈ subnets) (slash : contains (some (str cidr)) "/" = true)
    (inside : b.cidrContains cidr ip = some true) :
    ip_in_subnets b (some (str ip)) (strings subnets) = true := by
  have covered : b.net_cidr_contains (some (str cidr)) (some (str ip)) = true :=
    decide_eq_true inside
  have element : str cidr ∈ elements (strings subnets) :=
    List.mem_map.mpr ⟨.str cidr, List.mem_map.mpr ⟨cidr, listed, rfl⟩, rfl⟩
  rw [ip_in_subnets, Bool.or_eq_true]
  exact .inl (List.any_eq_true.mpr ⟨_, element, by rw [slash, covered]; rfl⟩)

private theorem in_shipped_subnets (networks : AllNetworks b) (a : IP) :
    ip_in_subnets b (some (str (IP.String a))) (strings shipped.allowedSubnets) = true := by
  have slash4 : contains (some (str "0.0.0.0/0")) "/" = true := by decide +kernel
  have slash6 : contains (some (str "::/0")) "/" = true := by decide +kernel
  have first : "0.0.0.0/0" ∈ shipped.allowedSubnets := List.mem_cons_self
  have second : "::/0" ∈ shipped.allowedSubnets := List.mem_cons_of_mem _ List.mem_cons_self
  rcases Option.eq_none_or_eq_some (IP.To4 a) with six | ⟨v, four⟩
  · exact in_subnets_of_contains second slash6 ((networks a).1 six)
  · exact in_subnets_of_contains first slash4 ((networks a).2 v four)

/-- Nothing in the input meets a rule of the shipped policy. -/
structure Harmless (i : Input) : Prop where
  source : ∃ a, i.packet.srcIP = IP.String a
  destination : ∃ a, i.packet.dstIP = IP.String a
  protocol : i.packet.protocol ≠ "ICMP"
  srcPort : i.packet.srcPort = 0
  dstPort : i.packet.dstPort = 0
  tcpFlags : i.packet.tcpFlags = .none
  unmarked : i.packet.fragment.l4Incomplete = false
  pps : i.rate.srcIPpps ≤ 10000
  portPPS : i.rate.srcPortPPS ≤ 500
  newConns : i.rate.newConnsPerSec ≤ 1000
  country : i.geo.srcCountry = ""

theorem port_zero_free : port_in_ranges b (some (Document.port 0)) (ports shipped.blockedPorts) =
    false := rfl

theorem not_denied (networks : AllNetworks b) (harmless : Harmless i) : ¬ Denied b shipped i := by
  obtain ⟨⟨a, source⟩, ⟨a', destination⟩, protocol, srcPort, dstPort, flags, unmarked, pps,
    portPPS, newConns, country⟩ := harmless
  have syn : i.packet.tcpFlags.syn = false := by rw [flags]; rfl
  have rst : i.packet.tcpFlags.rst = false := by rw [flags]; rfl
  have home := in_shipped_subnets networks a
  have away := in_shipped_subnets networks a'
  have nowhere : i.document.ref ["geo", "src_country"] = none := by
    rw [Document.ref_src_country, if_pos country]
  rintro ⟨r, member, holds⟩
  simp only [denyRules, List.mem_cons, List.not_mem_nil, or_false] at member
  rcases member with rfl | rfl | rfl | rfl | rfl | rfl | rfl | rfl | rfl | rfl | rfl | rfl | rfl |
    rfl | rfl | rfl | rfl | rfl | rfl | rfl | rfl
  · simp [deny_ip_spoofing, source, home] at holds
  · simp [deny_port_scan, syn] at holds
  · simp [deny_syn_flood, syn] at holds
  · simp [deny_protocol_anomaly, flags] at holds
    exact absurd holds.2 (by decide)
  · simp [deny_ingress_egress, destination, away] at holds
  · simp [deny_blocked_port, dstPort, port_zero_free] at holds
  · simp [deny_icmp, protocol] at holds
  · simp [deny_icmp_flood, protocol] at holds
  · simp [deny_state_violation, rst] at holds
  · simp [deny_blocked_protocol, shipped, strings, Foundation.Rego.member, str] at holds
  · simp [deny_traffic_rate, shipped, pps.not_gt] at holds
  · simp [deny_fragment_attack, shipped] at holds
  · simp [deny_incomplete_fragment, unmarked] at holds
  · simp [deny_source_port, srcPort, port_zero_free] at holds
  · simp [deny_new_conn_rate, shipped, newConns.not_gt] at holds
  · simp [deny_port_rate, shipped, portPPS.not_gt] at holds
  · simp [deny_geoip_blocked_src, nowhere, equal] at holds
  · simp [deny_geoip_src_not_allowed, nowhere, unequal] at holds
  · simp [deny_geoip_dst_not_allowed, shipped, strings, count] at holds
  · simp [deny_time_based, scheduled, schedule, shipped, elements, DenyRule.holds] at holds
  · simp [deny_time_based_outside_window, scheduled, schedule, shipped, elements,
      DenyRule.holds] at holds

end Passed

end L3Firewall.Opa.Denials
