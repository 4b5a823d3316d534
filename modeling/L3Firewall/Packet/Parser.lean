/- Packet/Parser
   source: internal/packet/parser.go
   digest: IPv4 and IPv6 packets: fragment state, the IPv6 header chain and the L4 fields. -/

import L3Firewall.Net.Address

set_option autoImplicit false
set_option relaxedAutoImplicit false

namespace L3Firewall.Packet.Parser

open Net.Address (IP IPv4)

abbrev Bytes := List UInt8

/-- The byte at an index. Every read below stands behind a test of the length. -/
def byte (raw : Bytes) (i : Nat) : UInt8 := raw.getD i 0

def be16 (raw : Bytes) (i : Nat) : Nat := (byte raw i).toNat * 256 + (byte raw (i + 1)).toNat

structure TCPFlags where
  syn : Bool
  ack : Bool
  rst : Bool
  fin : Bool
  deriving DecidableEq

/-- `offset` counts units of 8 bytes. `l4Incomplete` marks a packet that must carry an L4
header and does not. -/
structure FragmentInfo where
  isFragment : Bool
  moreFragments : Bool
  offset : Nat
  l4Incomplete : Bool
  deriving DecidableEq

structure PacketInfo where
  srcMAC : String
  dstMAC : String
  srcIP : String
  dstIP : String
  protocol : String
  srcPort : UInt16
  dstPort : UInt16
  tcpFlags : TCPFlags
  icmpType : Option UInt8
  icmpCode : Option UInt8
  fragment : FragmentInfo
  packetSize : Nat
  ipv6ExtHeaders : List String
  deriving DecidableEq

def TCPFlags.none : TCPFlags := ⟨false, false, false, false⟩

def FragmentInfo.none : FragmentInfo := ⟨false, false, 0, false⟩

/-- The fields that the parser takes from a decoded IPv4 layer. -/
structure IPv4Layer where
  ihl : UInt8
  flags : UInt8
  fragOffset : Nat
  protocol : UInt8
  srcIP : IPv4
  dstIP : IPv4
  deriving DecidableEq

structure IPv6Layer where
  nextHeader : UInt8
  srcIP : IP
  dstIP : IP
  deriving DecidableEq

/-- The packet decoder. The first layer of either kind, when there is one, and the
addresses of an Ethernet layer, which only a tunnelled frame has. -/
structure Decoder where
  ipv4 : Bytes → Option IPv4Layer
  ipv6 : Bytes → Option IPv6Layer
  mac : Bytes → String × String

def ipProtocolICMPv4 : UInt8 := 1

def ipProtocolTCP : UInt8 := 6

def ipProtocolUDP : UInt8 := 17

def ipProtocolIPv6HopByHop : UInt8 := 0

def ipProtocolIPv6Routing : UInt8 := 43

def ipProtocolIPv6Fragment : UInt8 := 44

def ipProtocolICMPv6 : UInt8 := 58

def ipProtocolIPv6Destination : UInt8 := 60

def ipv4HeaderLen : Nat := 20

def ipv6HeaderLen : Nat := 40

def ipv6FragmentHeaderLen : Nat := 8

def tcpMinHeaderLen : Nat := 20

def udpHeaderLen : Nat := 8

def icmpMinHeaderLen : Nat := 4

def ipv4MoreFragments : UInt8 := 1

/-- Names of the extension headers that the walk goes through. -/
def extHeaderTypes (proto : UInt8) : Option String :=
  if proto = ipProtocolIPv6HopByHop then some "HopByHop"
  else if proto = ipProtocolIPv6Routing then some "Routing"
  else if proto = ipProtocolIPv6Fragment then some "Fragment"
  else if proto = ipProtocolIPv6Destination then some "Destination"
  else none

def protocolName (proto : UInt8) : String :=
  if proto = ipProtocolTCP then "TCP"
  else if proto = ipProtocolUDP then "UDP"
  else if proto = ipProtocolICMPv4 then "ICMP"
  else if proto = ipProtocolICMPv6 then "ICMPv6"
  else "IP-" ++ Nat.repr proto.toNat

/-- `l4Offset` is `none` when no L4 header is on the wire. -/
structure IPv6HeaderChain where
  l4Proto : UInt8
  l4Offset : Option Nat
  extHeaders : List String
  fragment : FragmentInfo
  deriving DecidableEq

/-- The loop of the header walk. Every round moves at least 8 bytes on, so a budget of
one round for each byte is never used up. -/
def walk (raw : Bytes) : Nat → UInt8 → Nat → List String → FragmentInfo → IPv6HeaderChain
  | 0, proto, _, ext, frag => ⟨proto, none, ext, frag⟩
  | budget + 1, proto, off, ext, frag =>
      match extHeaderTypes proto with
      | none => ⟨proto, if off < raw.length then some off else none, ext, frag⟩
      | some name =>
          if raw.length ≤ off then ⟨proto, none, ext, frag⟩
          else if proto = ipProtocolIPv6Fragment then
            if raw.length < off + ipv6FragmentHeaderLen then ⟨proto, none, ext ++ [name], frag⟩
            else
              let flagsOffset := be16 raw (off + 2)
              let frag := ⟨true, decide (flagsOffset % 2 = 1), flagsOffset / 8, false⟩
              if 0 < flagsOffset / 8 then ⟨byte raw off, none, ext ++ [name], frag⟩
              else walk raw budget (byte raw off) (off + ipv6FragmentHeaderLen) (ext ++ [name]) frag
          else if raw.length < off + 2 then ⟨proto, none, ext ++ [name], frag⟩
          else
            walk raw budget (byte raw off) (off + ((byte raw (off + 1)).toNat + 1) * 8)
              (ext ++ [name]) frag

theorem walk_budget (raw : Bytes) (budget extra : Nat) (proto : UInt8) (off : Nat)
    (ext : List String) (frag : FragmentInfo) (enough : raw.length ≤ off + budget) :
    walk raw (budget + 1 + extra) proto off ext frag =
      walk raw (budget + 1) proto off ext frag := by
  induction budget generalizing proto off ext frag with
  | zero =>
      have past : raw.length ≤ off := enough
      rw [Nat.zero_add, Nat.add_comm 1 extra, walk, walk]
      simp only [past, if_true]
  | succ budget ih =>
      have next (step : Nat) (moved : 1 ≤ step) (proto : UInt8) (ext : List String)
          (frag : FragmentInfo) : walk raw (budget + 1 + extra) proto (off + step) ext frag =
            walk raw (budget + 1) proto (off + step) ext frag :=
        ih proto (off + step) ext frag (by omega)
      have size (b : UInt8) : 1 ≤ (b.toNat + 1) * 8 := by omega
      rw [Nat.add_right_comm, walk, walk]
      simp only [next _ (size _), next ipv6FragmentHeaderLen (by decide)]

def walkIPv6HeaderChain (raw : Bytes) (first : UInt8) : IPv6HeaderChain :=
  walk raw (raw.length + 1) first ipv6HeaderLen [] .none

def PacketInfo.incomplete (info : PacketInfo) : PacketInfo :=
  { info with fragment := { info.fragment with l4Incomplete := true } }

def PacketInfo.readPorts (info : PacketInfo) (raw : Bytes) (off : Nat) : PacketInfo :=
  { info with
    srcPort := UInt16.ofNat (be16 raw off)
    dstPort := UInt16.ofNat (be16 raw (off + 2)) }

def readTCPFlags (flags : UInt8) : TCPFlags where
  syn := decide (flags &&& 0x02 ≠ 0)
  ack := decide (flags &&& 0x10 ≠ 0)
  rst := decide (flags &&& 0x04 ≠ 0)
  fin := decide (flags &&& 0x01 ≠ 0)

/-- The only place where L4 fields are filled, for both address families. -/
def populateL4FromBytes (info : PacketInfo) (raw : Bytes) (off : Option Nat) (proto : UInt8) :
    PacketInfo :=
  let info := { info with protocol := protocolName proto }
  match off with
  | none => info
  | some off =>
      if proto = ipProtocolTCP then
        if raw.length < off + tcpMinHeaderLen then info.incomplete
        else { info.readPorts raw off with tcpFlags := readTCPFlags (byte raw (off + 13)) }
      else if proto = ipProtocolUDP then
        if raw.length < off + udpHeaderLen then info.incomplete else info.readPorts raw off
      else if proto = ipProtocolICMPv4 ∨ proto = ipProtocolICMPv6 then
        if raw.length < off + icmpMinHeaderLen then info.incomplete
        else { info with icmpType := some (byte raw off), icmpCode := some (byte raw (off + 1)) }
      else info

def baseInfo (d : Decoder) (raw : Bytes) (srcIP dstIP : String) (fragment : FragmentInfo)
    (ext : List String) : PacketInfo where
  srcMAC := (d.mac raw).1
  dstMAC := (d.mac raw).2
  srcIP := srcIP
  dstIP := dstIP
  protocol := ""
  srcPort := 0
  dstPort := 0
  tcpFlags := .none
  icmpType := none
  icmpCode := none
  fragment := fragment
  packetSize := raw.length
  ipv6ExtHeaders := ext

def parseIPv4Packet (d : Decoder) (raw : Bytes) : Except String PacketInfo :=
  if raw.length < 20 then
    .error ("IPv4 packet too short: " ++ Nat.repr raw.length ++ " bytes")
  else
    match d.ipv4 raw with
    | none => .error "no IPv4 layer found"
    | some ipv4 =>
        let more := decide (ipv4.flags &&& ipv4MoreFragments ≠ 0)
        let info := baseInfo d raw (IPv4.String ipv4.srcIP) (IPv4.String ipv4.dstIP)
          ⟨decide (0 < ipv4.fragOffset) || more, more, ipv4.fragOffset, false⟩ []
        if 0 < ipv4.fragOffset then
          .ok { info with protocol := protocolName ipv4.protocol }
        else if ipv4.ihl.toNat * 4 < ipv4HeaderLen then
          .ok { info.incomplete with protocol := protocolName ipv4.protocol }
        else .ok (populateL4FromBytes info raw (some (ipv4.ihl.toNat * 4)) ipv4.protocol)

def parseIPv6Packet (d : Decoder) (raw : Bytes) : Except String PacketInfo :=
  if raw.length < 40 then
    .error ("IPv6 packet too short: " ++ Nat.repr raw.length ++ " bytes")
  else
    match d.ipv6 raw with
    | none => .error "no IPv6 layer found"
    | some ipv6 =>
        let chain := walkIPv6HeaderChain raw ipv6.nextHeader
        let info := baseInfo d raw (IP.String ipv6.srcIP) (IP.String ipv6.dstIP) chain.fragment
          chain.extHeaders
        .ok (populateL4FromBytes info raw chain.l4Offset chain.l4Proto)

def ParsePacket (d : Decoder) (raw : Bytes) : Except String PacketInfo :=
  if raw.length < 1 then .error ("packet too short: " ++ Nat.repr raw.length ++ " bytes")
  else
    let version := (byte raw 0).toNat / 16
    if version = 4 then parseIPv4Packet d raw
    else if version = 6 then parseIPv6Packet d raw
    else .error ("unsupported IP version: " ++ Nat.repr version)

section Layout

def address4 (raw : Bytes) (i : Nat) : IPv4 :=
  BitVec.ofNat 32 (be16 raw i * 65536 + be16 raw (i + 2))

def address16 (raw : Bytes) (i : Nat) : IP :=
  address4 raw i ++ address4 raw (i + 4) ++ address4 raw (i + 8) ++ address4 raw (i + 12)

/-- The decoder returns the fixed fields of an IPv4 header where RFC 791 puts them. -/
def Decoder.RFC791 (d : Decoder) : Prop :=
  ∀ raw : Bytes, 20 ≤ raw.length → d.ipv4 raw = some
    { ihl := UInt8.ofNat ((byte raw 0).toNat % 16)
      flags := UInt8.ofNat ((byte raw 6).toNat / 32)
      fragOffset := be16 raw 6 % 8192
      protocol := byte raw 9
      srcIP := address4 raw 12
      dstIP := address4 raw 16 }

/-- The decoder returns the fixed fields of an IPv6 header where RFC 8200 puts them. -/
def Decoder.RFC8200 (d : Decoder) : Prop :=
  ∀ raw : Bytes, 40 ≤ raw.length → d.ipv6 raw = some
    { nextHeader := byte raw 6
      srcIP := address16 raw 8
      dstIP := address16 raw 24 }

/-- A decoder that reads the fixed fields and finds no Ethernet layer. -/
def fixedFields : Decoder where
  ipv4 raw :=
    if 20 ≤ raw.length then some
      { ihl := UInt8.ofNat ((byte raw 0).toNat % 16)
        flags := UInt8.ofNat ((byte raw 6).toNat / 32)
        fragOffset := be16 raw 6 % 8192
        protocol := byte raw 9
        srcIP := address4 raw 12
        dstIP := address4 raw 16 }
    else none
  ipv6 raw :=
    if 40 ≤ raw.length then some
      { nextHeader := byte raw 6
        srcIP := address16 raw 8
        dstIP := address16 raw 24 }
    else none
  mac _ := ("", "")

theorem fixedFields_RFC791 : fixedFields.RFC791 := fun _ long => if_pos long

theorem fixedFields_RFC8200 : fixedFields.RFC8200 := fun _ long => if_pos long

end Layout

end L3Firewall.Packet.Parser
