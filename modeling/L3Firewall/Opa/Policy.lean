/- Opa/Policy
   source: opa-policies/l3.rego
   digest: The shipped policy, rule by rule, over any setting of its constants. -/

import L3Firewall.Opa.Document

set_option autoImplicit false
set_option relaxedAutoImplicit false

namespace L3Firewall.Opa.Policy

open Foundation.Rego

/-- An entry of a port set: a number, or a range such as "8000-9000". -/
inductive PortSpec
  | number (n : ℚ)
  | range (s : String)
  deriving DecidableEq

def PortSpec.scalar : PortSpec → Scalar
  | .number n => .num n
  | .range s => .str s

/-- An entry of the schedule, with its five fields. -/
structure TimeRule where
  ports : List PortSpec
  days : List ℚ
  startHour : ℚ
  endHour : ℚ
  effect : String

structure Constants where
  allowedSubnets : List String
  blockedPorts : List PortSpec
  blockedProtocols : List String
  blockedIcmpTypes : List ℚ
  blockedIcmpCodes : List ℚ
  synRatePerSecond : ℚ
  icmpRatePerSecond : ℚ
  maxPacketsPerSecond : ℚ
  maxPortPps : ℚ
  maxNewConnectionsPerSecond : ℚ
  enableIpSpoofing : Bool
  enablePortScan : Bool
  enableSynFlood : Bool
  enableStateful : Bool
  enableFragment : Bool
  enableIngressEgress : Bool
  portScanThreshold : ℚ
  blockedSrcCountries : List String
  allowedSrcCountries : List String
  allowedDstCountries : List String
  timeBasedRules : List TimeRule

/-- The constants as shipped. An empty set is written as an empty object there, which
has no members either. -/
def shipped : Constants where
  allowedSubnets := ["0.0.0.0/0", "::/0"]
  blockedPorts := [.number 22, .number 23, .number 3389, .number 5900, .number 5901]
  blockedProtocols := []
  blockedIcmpTypes := [8]
  blockedIcmpCodes := []
  synRatePerSecond := 100
  icmpRatePerSecond := 10
  maxPacketsPerSecond := 10000
  maxPortPps := 500
  maxNewConnectionsPerSecond := 1000
  enableIpSpoofing := true
  enablePortScan := true
  enableSynFlood := true
  enableStateful := true
  enableFragment := false
  enableIngressEgress := true
  portScanThreshold := 20
  blockedSrcCountries := ["KP"]
  allowedSrcCountries := []
  allowedDstCountries := []
  timeBasedRules := []

def strings (l : List String) : Term := some (.set (l.map Scalar.str))

def numbers (l : List ℚ) : Term := some (.set (l.map Scalar.num))

def ports (l : List PortSpec) : Term := some (.set (l.map PortSpec.scalar))

def TimeRule.value (r : TimeRule) : Value :=
  .object [("ports", .set (r.ports.map PortSpec.scalar)), ("days", .set (r.days.map Scalar.num)),
    ("start_hour", num r.startHour), ("end_hour", num r.endHour), ("effect", str r.effect)]

section Helpers

variable (b : Builtins)

def ip_in_subnets (ip subnets : Term) : Bool :=
  (elements subnets).any (fun cidr =>
    contains (some cidr) "/" && b.net_cidr_contains (some cidr) ip) ||
  member subnets ip

/-- The bounds of a range that is not a pair of numbers are undefined. -/
def port_in_ranges (port ranges : Term) : Bool :=
  (elements ranges).any (fun r =>
    contains (some r) "-" &&
      let parts := split (some r) '-'
      let lower := b.to_number (item parts 0)
      let upper := b.to_number (item parts 1)
      atLeast port lower && atMost port upper) ||
  member ranges port

def invalid_tcp_flags (flags : Value) : Bool :=
  equal (flags.field "syn") (some (bool true)) && equal (flags.field "rst") (some (bool true)) ||
  equal (flags.field "fin") (some (bool true)) && equal (flags.field "rst") (some (bool true)) ||
  equal (flags.field "syn") (some (bool true)) && equal (flags.field "fin") (some (bool true))

end Helpers

/-- A denial with one or several heads for reasons, each undefined or a string. -/
def denial (name : String) (bodies : List Bool) (heads : Nat) (messages : List (Option String)) :
    DenyRule where
  name := name
  bodies := bodies
  heads := heads
  reasons := if bodies.any id then messages.filterMap id else []

section Rules

variable (b : Builtins) (c : Constants) (input : Value)

def deny_ip_spoofing : DenyRule :=
  denial "deny_ip_spoofing"
    [equal (some (bool c.enableIpSpoofing)) (some (bool true)) &&
      (input.ref ["packet", "src_ip"]).isSome &&
      !ip_in_subnets b (input.ref ["packet", "src_ip"]) (strings c.allowedSubnets)]
    1 [some "IP spoofing detected"]

def deny_port_scan : DenyRule :=
  denial "deny_port_scan"
    [equal (some (bool c.enablePortScan)) (some (bool true)) &&
      equal (input.ref ["connection", "packets_in_flow"]) (some (num 1)) &&
      equal (input.ref ["packet", "tcp_flags", "syn"]) (some (bool true)) &&
      equal (input.ref ["packet", "tcp_flags", "ack"]) (some (bool false)) &&
      atLeast (count (input.ref ["connection", "recent_ports"]))
        (some (num c.portScanThreshold))]
    1 [some "port scan detected"]

def deny_syn_flood : DenyRule :=
  denial "deny_syn_flood"
    [equal (some (bool c.enableSynFlood)) (some (bool true)) &&
      equal (input.ref ["packet", "protocol"]) (some (str "TCP")) &&
      equal (input.ref ["packet", "tcp_flags", "syn"]) (some (bool true)) &&
      equal (input.ref ["packet", "tcp_flags", "ack"]) (some (bool false)) &&
      greater (input.ref ["rate", "src_ip_pps"]) (some (num c.synRatePerSecond))]
    1 [some "SYN flood detected"]

def deny_protocol_anomaly : DenyRule :=
  denial "deny_protocol_anomaly"
    [equal (input.ref ["packet", "protocol"]) (some (str "TCP")) &&
      (match input.ref ["packet", "tcp_flags"] with
        | some flags => invalid_tcp_flags flags
        | none => false)]
    1 [some "protocol anomaly detected"]

def deny_ingress_egress : DenyRule :=
  denial "deny_ingress_egress"
    [equal (some (bool c.enableIngressEgress)) (some (bool true)) &&
      (input.ref ["packet", "dst_ip"]).isSome &&
      !ip_in_subnets b (input.ref ["packet", "dst_ip"]) (strings c.allowedSubnets)]
    1 [some "ingress/egress filtering blocked"]

def deny_blocked_port : DenyRule :=
  denial "deny_blocked_port"
    [equal (input.ref ["packet", "protocol"]) (some (str "TCP")) &&
        port_in_ranges b (input.ref ["packet", "dst_port"]) (ports c.blockedPorts),
      equal (input.ref ["packet", "protocol"]) (some (str "UDP")) &&
        port_in_ranges b (input.ref ["packet", "dst_port"]) (ports c.blockedPorts)]
    2 [b.sprintf "blocked port %v (%s)"
      [input.ref ["packet", "dst_port"], input.ref ["packet", "protocol"]]]

def deny_icmp : DenyRule :=
  denial "deny_icmp"
    [equal (input.ref ["packet", "protocol"]) (some (str "ICMP")) &&
        member (numbers c.blockedIcmpTypes) (input.ref ["packet", "icmp_type"]),
      equal (input.ref ["packet", "protocol"]) (some (str "ICMP")) &&
        member (numbers c.blockedIcmpCodes) (input.ref ["packet", "icmp_code"])]
    2 [b.sprintf "blocked ICMP type=%v code=%v"
      [input.ref ["packet", "icmp_type"], input.ref ["packet", "icmp_code"]]]

def deny_icmp_flood : DenyRule :=
  denial "deny_icmp_flood"
    [equal (input.ref ["packet", "protocol"]) (some (str "ICMP")) &&
      greater (input.ref ["rate", "src_ip_pps"]) (some (num c.icmpRatePerSecond))]
    1 [some "ICMP flood detected"]

def deny_state_violation : DenyRule :=
  denial "deny_state_violation"
    [equal (some (bool c.enableStateful)) (some (bool true)) &&
      equal (input.ref ["packet", "protocol"]) (some (str "TCP")) &&
      equal (input.ref ["packet", "tcp_flags", "rst"]) (some (bool true)) &&
      equal (input.ref ["connection", "established"]) (some (bool false))]
    1 [some "connection state violation: RST to non-existent flow"]

def deny_blocked_protocol : DenyRule :=
  denial "deny_blocked_protocol"
    [member (strings c.blockedProtocols) (input.ref ["packet", "protocol"])]
    1 [b.sprintf "blocked protocol %v" [input.ref ["packet", "protocol"]]]

def deny_traffic_rate : DenyRule :=
  denial "deny_traffic_rate"
    [greater (input.ref ["rate", "src_ip_pps"]) (some (num c.maxPacketsPerSecond))]
    1 [b.sprintf "rate limit exceeded: %v pps" [input.ref ["rate", "src_ip_pps"]]]

def deny_fragment_attack : DenyRule :=
  denial "deny_fragment_attack"
    [equal (some (bool c.enableFragment)) (some (bool true)) &&
      equal (input.ref ["packet", "fragment", "is_fragment"]) (some (bool true)) &&
      greater (input.ref ["packet", "fragment", "offset"]) (some (num 0))]
    1 [b.sprintf "fragment attack: offset=%v" [input.ref ["packet", "fragment", "offset"]]]

def deny_incomplete_fragment : DenyRule :=
  denial "deny_incomplete_fragment"
    [equal (input.ref ["packet", "fragment", "l4_incomplete"]) (some (bool true))]
    1 [some "uninspectable fragment: incomplete L4 header (RFC 1858 tiny fragment)"]

/-- Both reasons are given whichever body holds. -/
def deny_source_port : DenyRule :=
  denial "deny_source_port"
    [equal (input.ref ["packet", "protocol"]) (some (str "TCP")) &&
        port_in_ranges b (input.ref ["packet", "src_port"]) (ports c.blockedPorts),
      equal (input.ref ["packet", "protocol"]) (some (str "UDP")) &&
        port_in_ranges b (input.ref ["packet", "src_port"]) (ports c.blockedPorts)]
    2 [b.sprintf "blocked source port %v (TCP)" [input.ref ["packet", "src_port"]],
      b.sprintf "blocked source port %v (UDP)" [input.ref ["packet", "src_port"]]]

def deny_new_conn_rate : DenyRule :=
  denial "deny_new_conn_rate"
    [greater (input.ref ["rate", "new_conns_per_sec"]) (some (num c.maxNewConnectionsPerSecond))]
    1 [b.sprintf "new connection rate exceeded: %v/sec" [input.ref ["rate", "new_conns_per_sec"]]]

def deny_port_rate : DenyRule :=
  denial "deny_port_rate"
    [greater (input.ref ["rate", "src_port_pps"]) (some (num c.maxPortPps))]
    1 [b.sprintf "per-port rate limit: %v pps to port %v"
      [input.ref ["rate", "src_port_pps"], input.ref ["packet", "dst_port"]]]

def deny_geoip_blocked_src : DenyRule :=
  denial "deny_geoip_blocked_src"
    [greater (count (strings c.blockedSrcCountries)) (some (num 0)) &&
      (elements (strings c.blockedSrcCountries)).any (fun country =>
        equal (input.ref ["geo", "src_country"]) (some country))]
    1 [b.sprintf "blocked source country: %v" [input.ref ["geo", "src_country"]]]

def deny_geoip_src_not_allowed : DenyRule :=
  denial "deny_geoip_src_not_allowed"
    [greater (count (strings c.allowedSrcCountries)) (some (num 0)) &&
      unequal (input.ref ["geo", "src_country"]) (some (str "")) &&
      !member (strings c.allowedSrcCountries) (input.ref ["geo", "src_country"])]
    1 [b.sprintf "source country %v not in allowed list" [input.ref ["geo", "src_country"]]]

def deny_geoip_dst_not_allowed : DenyRule :=
  denial "deny_geoip_dst_not_allowed"
    [greater (count (strings c.allowedDstCountries)) (some (num 0)) &&
      unequal (input.ref ["geo", "dst_country"]) (some (str "")) &&
      !member (strings c.allowedDstCountries) (input.ref ["geo", "dst_country"])]
    1 [b.sprintf "destination country %v not in allowed list" [input.ref ["geo", "dst_country"]]]

def schedule : Term := some (.array (c.timeBasedRules.map TimeRule.value))

/-- An entry without days applies on all of them. -/
def time_based_matches (rule : Value) : Bool :=
  equal (count (rule.field "days")) (some (num 0)) ||
    member (rule.field "days") (input.ref ["time", "utc_day"])

def time_based_in_window (rule : Value) : Bool :=
  atLeast (input.ref ["time", "utc_hour"]) (rule.field "start_hour") &&
    less (input.ref ["time", "utc_hour"]) (rule.field "end_hour")

/-- The body shared by the denial inside a window and its reason. -/
def blocksInWindow (rule : Value) : Bool :=
  equal (rule.field "effect") (some (str "deny")) &&
    port_in_ranges b (input.ref ["packet", "dst_port"]) (rule.field "ports") &&
    time_based_matches input rule && time_based_in_window input rule

def blocksOutsideWindow (rule : Value) : Bool :=
  equal (rule.field "effect") (some (str "allow")) &&
    port_in_ranges b (input.ref ["packet", "dst_port"]) (rule.field "ports") &&
    time_based_matches input rule && !time_based_in_window input rule

/-- A denial that runs through the schedule, with a reason for every entry that applies. -/
def scheduled (name : String) (applies : Value → Bool) (template : String) : DenyRule where
  name := name
  bodies := [(elements (schedule c)).any applies]
  heads := 1
  reasons := (elements (schedule c)).filterMap fun rule =>
    if applies rule then
      b.sprintf template
        [input.ref ["packet", "dst_port"], rule.field "start_hour", rule.field "end_hour"]
    else none

def deny_time_based : DenyRule :=
  scheduled b c input "deny_time_based" (blocksInWindow b input)
    "time-based block: port=%v during restricted hours (UTC %v:00-%v:00)"

def deny_time_based_outside_window : DenyRule :=
  scheduled b c input "deny_time_based_outside_window" (blocksOutsideWindow b input)
    "time-based block outside window: port=%v (only allowed UTC %v:00-%v:00)"

def denyRules : List DenyRule :=
  [deny_ip_spoofing b c input, deny_port_scan c input, deny_syn_flood c input,
    deny_protocol_anomaly input, deny_ingress_egress b c input, deny_blocked_port b c input,
    deny_icmp b c input, deny_icmp_flood c input, deny_state_violation c input,
    deny_blocked_protocol b c input, deny_traffic_rate b c input, deny_fragment_attack b c input,
    deny_incomplete_fragment input, deny_source_port b c input, deny_new_conn_rate b c input,
    deny_port_rate b c input, deny_geoip_blocked_src b c input,
    deny_geoip_src_not_allowed b c input, deny_geoip_dst_not_allowed b c input,
    deny_time_based b c input, deny_time_based_outside_window b c input]

end Rules

/-- The query `data.l3_firewall`. -/
def query (b : Builtins) (c : Constants) (i : Document.Input) : Except String Document :=
  evaluate (denyRules b c i.document)

end L3Firewall.Opa.Policy
