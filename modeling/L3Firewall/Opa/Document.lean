/- Opa/Document
   source: internal/opa/input.go
   digest: The input of a policy evaluation and the document it is encoded to. -/

import L3Firewall.Conntrack.FlowTable
import L3Firewall.Foundation.Rego
import L3Firewall.Packet.Parser

set_option autoImplicit false
set_option relaxedAutoImplicit false

namespace L3Firewall.Opa.Document

open Foundation.Rego (Value Term null bool num str)
open Conntrack.FlowTable (Time unix)
open Packet.Parser (TCPFlags FragmentInfo)

structure PacketInfo where
  srcIP : String
  dstIP : String
  protocol : String
  srcPort : UInt16
  dstPort : UInt16
  tcpFlags : TCPFlags
  icmpType : Option UInt8
  icmpCode : Option UInt8
  fragment : FragmentInfo
  packetSize : Nat
  deriving DecidableEq

/-- `recentPorts` is `none` for a nil slice. -/
structure ConnectionInfo where
  established : Bool
  tcpState : String
  packetsInFlow : Int
  ageMs : Int
  recentPorts : Option (List UInt16)
  deriving DecidableEq

structure RateInfo where
  srcIPpps : ℚ
  srcIPbps : ℚ
  srcPortPPS : ℚ
  srcPortBPS : ℚ
  newConnsPerSec : ℚ
  deriving DecidableEq

structure TimeInfo where
  utcHour : Nat
  utcDay : Nat
  deriving DecidableEq

structure GeoInfo where
  srcCountry : String
  dstCountry : String
  deriving DecidableEq

structure Input where
  packet : PacketInfo
  connection : ConnectionInfo
  rate : RateInfo
  time : TimeInfo
  geo : GeoInfo
  deriving DecidableEq

/-- Hour of the day and day of the week, which was a Thursday at the epoch. -/
def timeInfo (now : Time) : TimeInfo where
  utcHour := unix now / 3600 % 24
  utcDay := (unix now / 86400 + 4) % 7

def BuildInput (pi : Packet.Parser.PacketInfo) (pps bps : ℚ) (established : Bool)
    (tcpState : String) (portPPS portBPS newConnRate : ℚ) (recentPorts : List UInt16)
    (now : Time) : Input where
  packet :=
    { srcIP := pi.srcIP
      dstIP := pi.dstIP
      protocol := pi.protocol
      srcPort := pi.srcPort
      dstPort := pi.dstPort
      tcpFlags := pi.tcpFlags
      icmpType := pi.icmpType
      icmpCode := pi.icmpCode
      fragment := pi.fragment
      packetSize := pi.packetSize }
  connection :=
    { established := established
      tcpState := tcpState
      packetsInFlow := 1
      ageMs := 0
      recentPorts := if 0 < recentPorts.length then some recentPorts else none }
  rate :=
    { srcIPpps := pps
      srcIPbps := bps
      srcPortPPS := portPPS
      srcPortBPS := portBPS
      newConnsPerSec := newConnRate }
  time := timeInfo now
  geo := ⟨"", ""⟩

section Document

def port (p : UInt16) : Value := num p.toNat

/-- A pointer that is nil is encoded as null. -/
def optional (n : Option UInt8) : Value :=
  match n with
  | none => null
  | some n => num n.toNat

def TCPFlags.document (f : TCPFlags) : Value :=
  .object [("syn", bool f.syn), ("ack", bool f.ack), ("rst", bool f.rst), ("fin", bool f.fin)]

def FragmentInfo.document (f : FragmentInfo) : Value :=
  .object [("is_fragment", bool f.isFragment), ("more_fragments", bool f.moreFragments),
    ("offset", num f.offset), ("l4_incomplete", bool f.l4Incomplete)]

def PacketInfo.document (p : PacketInfo) : Value :=
  .object [("src_ip", str p.srcIP), ("dst_ip", str p.dstIP), ("protocol", str p.protocol),
    ("src_port", port p.srcPort), ("dst_port", port p.dstPort),
    ("tcp_flags", TCPFlags.document p.tcpFlags), ("icmp_type", optional p.icmpType),
    ("icmp_code", optional p.icmpCode), ("fragment", FragmentInfo.document p.fragment),
    ("packet_size", num p.packetSize)]

def ConnectionInfo.document (c : ConnectionInfo) : Value :=
  .object [("established", bool c.established), ("tcp_state", str c.tcpState),
    ("packets_in_flow", num c.packetsInFlow), ("age_ms", num c.ageMs),
    ("recent_ports", match c.recentPorts with
      | none => null
      | some ports => .array (ports.map port))]

def RateInfo.document (r : RateInfo) : Value :=
  .object [("src_ip_pps", num r.srcIPpps), ("src_ip_bps", num r.srcIPbps),
    ("src_port_pps", num r.srcPortPPS), ("src_port_bps", num r.srcPortBPS),
    ("new_conns_per_sec", num r.newConnsPerSec)]

def TimeInfo.document (t : TimeInfo) : Value :=
  .object [("utc_hour", num t.utcHour), ("utc_day", num t.utcDay)]

/-- An empty string is left out. -/
def omitEmpty (key s : String) : List (String × Value) := if s = "" then [] else [(key, str s)]

def GeoInfo.document (g : GeoInfo) : Value :=
  .object (omitEmpty "src_country" g.srcCountry ++ omitEmpty "dst_country" g.dstCountry)

def Input.document (i : Input) : Value :=
  .object [("packet", i.packet.document), ("connection", i.connection.document),
    ("rate", i.rate.document), ("time", i.time.document), ("geo", i.geo.document)]

end Document

theorem ref_src_country (i : Input) : i.document.ref ["geo", "src_country"] =
    if i.geo.srcCountry = "" then none else some (str i.geo.srcCountry) := by
  change (i.geo.document.field "src_country").bind some = _
  unfold GeoInfo.document omitEmpty Value.field
  by_cases src : i.geo.srcCountry = "" <;> by_cases dst : i.geo.dstCountry = "" <;>
    simp only [src, dst, if_true, if_false] <;> rfl

end L3Firewall.Opa.Document
