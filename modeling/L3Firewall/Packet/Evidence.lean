/- Packet/Evidence
   source: internal/packet/parser.go
   digest: The L4 fields of a parsed packet are bytes of the packet, and no read is out of range. -/

import L3Firewall.Packet.HeaderChain

set_option autoImplicit false
set_option relaxedAutoImplicit false

namespace L3Firewall.Packet.Evidence

open Packet.Parser Packet.HeaderChain

section Indexing

/-- The parser once more, with the range of every index and slice checked as Go does. There
is no result when one is out of range. -/
def index (raw : Bytes) (i : Nat) : Option UInt8 := raw[i]?

def index16 (raw : Bytes) (i : Nat) : Option Nat :=
  (index raw i).bind fun high => (index raw (i + 1)).map fun low => high.toNat * 256 + low.toNat

def walkIndexed (raw : Bytes) :
    Nat → UInt8 → Nat → List String → FragmentInfo → Option IPv6HeaderChain
  | 0, proto, _, ext, frag => some ⟨proto, none, ext, frag⟩
  | budget + 1, proto, off, ext, frag =>
      match extHeaderTypes proto with
      | none => some ⟨proto, if off < raw.length then some off else none, ext, frag⟩
      | some name =>
          if raw.length ≤ off then some ⟨proto, none, ext, frag⟩
          else
            (index raw off).bind fun next =>
              if proto = ipProtocolIPv6Fragment then
                if raw.length < off + ipv6FragmentHeaderLen then
                  some ⟨proto, none, ext ++ [name], frag⟩
                else
                  (index16 raw (off + 2)).bind fun flagsOffset =>
                    let frag := ⟨true, decide (flagsOffset % 2 = 1), flagsOffset / 8, false⟩
                    if 0 < flagsOffset / 8 then some ⟨next, none, ext ++ [name], frag⟩
                    else
                      walkIndexed raw budget next (off + ipv6FragmentHeaderLen) (ext ++ [name]) frag
              else if raw.length < off + 2 then some ⟨proto, none, ext ++ [name], frag⟩
              else
                (index raw (off + 1)).bind fun len =>
                  walkIndexed raw budget next (off + (len.toNat + 1) * 8) (ext ++ [name]) frag

def portsIndexed (info : PacketInfo) (raw : Bytes) (off : Nat) : Option PacketInfo :=
  (index16 raw off).bind fun src => (index16 raw (off + 2)).map fun dst =>
    { info with srcPort := UInt16.ofNat src, dstPort := UInt16.ofNat dst }

def populateIndexed (info : PacketInfo) (raw : Bytes) (off : Option Nat) (proto : UInt8) :
    Option PacketInfo :=
  let info := { info with protocol := protocolName proto }
  match off with
  | none => some info
  | some off =>
      if proto = ipProtocolTCP then
        if raw.length < off + tcpMinHeaderLen then some info.incomplete
        else
          (portsIndexed info raw off).bind fun info => (index raw (off + 13)).map fun flags =>
            { info with tcpFlags := readTCPFlags flags }
      else if proto = ipProtocolUDP then
        if raw.length < off + udpHeaderLen then some info.incomplete
        else portsIndexed info raw off
      else if proto = ipProtocolICMPv4 ∨ proto = ipProtocolICMPv6 then
        if raw.length < off + icmpMinHeaderLen then some info.incomplete
        else
          (index raw off).bind fun t => (index raw (off + 1)).map fun c =>
            { info with icmpType := some t, icmpCode := some c }
      else some info

def parseIPv4Indexed (d : Decoder) (raw : Bytes) : Option (Except String PacketInfo) :=
  if raw.length < 20 then
    some (.error ("IPv4 packet too short: " ++ Nat.repr raw.length ++ " bytes"))
  else
    match d.ipv4 raw with
    | none => some (.error "no IPv4 layer found")
    | some ipv4 =>
        let more := decide (ipv4.flags &&& ipv4MoreFragments ≠ 0)
        let info := baseInfo d raw (Net.Address.IPv4.String ipv4.srcIP)
          (Net.Address.IPv4.String ipv4.dstIP)
          ⟨decide (0 < ipv4.fragOffset) || more, more, ipv4.fragOffset, false⟩ []
        if 0 < ipv4.fragOffset then
          some (.ok { info with protocol := protocolName ipv4.protocol })
        else if ipv4.ihl.toNat * 4 < ipv4HeaderLen then
          some (.ok { info.incomplete with protocol := protocolName ipv4.protocol })
        else
          (populateIndexed info raw (some (ipv4.ihl.toNat * 4)) ipv4.protocol).map .ok

def parseIPv6Indexed (d : Decoder) (raw : Bytes) : Option (Except String PacketInfo) :=
  if raw.length < 40 then
    some (.error ("IPv6 packet too short: " ++ Nat.repr raw.length ++ " bytes"))
  else
    match d.ipv6 raw with
    | none => some (.error "no IPv6 layer found")
    | some ipv6 =>
        (walkIndexed raw (raw.length + 1) ipv6.nextHeader ipv6HeaderLen [] .none).bind fun chain =>
          let info := baseInfo d raw (Net.Address.IP.String ipv6.srcIP)
            (Net.Address.IP.String ipv6.dstIP) chain.fragment chain.extHeaders
          (populateIndexed info raw chain.l4Offset chain.l4Proto).map .ok

def ParsePacketIndexed (d : Decoder) (raw : Bytes) : Option (Except String PacketInfo) :=
  if raw.length < 1 then
    some (.error ("packet too short: " ++ Nat.repr raw.length ++ " bytes"))
  else
    (index raw 0).bind fun head =>
      let version := head.toNat / 16
      if version = 4 then parseIPv4Indexed d raw
      else if version = 6 then parseIPv6Indexed d raw
      else some (.error ("unsupported IP version: " ++ Nat.repr version))

variable {raw : Bytes} {i : Nat}

private theorem index_inside (inside : i < raw.length) : index raw i = some (byte raw i) := by
  unfold index byte
  rw [List.getD_eq_getElem?_getD, List.getElem?_eq_getElem inside, Option.getD_some]

private theorem index16_inside (inside : i + 1 < raw.length) :
    index16 raw i = some (be16 raw i) := by
  have before : i < raw.length := by omega
  unfold index16
  rw [index_inside before, index_inside inside]
  rfl

theorem walkIndexed_eq (raw : Bytes) (budget : Nat) (proto : UInt8) (off : Nat) (ext : List String)
    (frag : FragmentInfo) :
    walkIndexed raw budget proto off ext frag = some (walk raw budget proto off ext frag) := by
  induction budget generalizing proto off ext frag with
  | zero => rfl
  | succ budget ih =>
      unfold walkIndexed walk
      cases known : extHeaderTypes proto with
      | none => rfl
      | some name =>
          dsimp only
          by_cases past : raw.length ≤ off
          · rw [if_pos past, if_pos past]
          · rw [if_neg past, if_neg past, index_inside (by omega), Option.bind_some]
            by_cases fragment : proto = ipProtocolIPv6Fragment
            · rw [if_pos fragment, if_pos fragment]
              by_cases cut : raw.length < off + ipv6FragmentHeaderLen
              · rw [if_pos cut, if_pos cut]
              · have size : ipv6FragmentHeaderLen = 8 := rfl
                rw [if_neg cut, if_neg cut, index16_inside (by omega), Option.bind_some]
                by_cases later : 0 < be16 raw (off + 2) / 8
                · rw [if_pos later, if_pos later]
                · rw [if_neg later, if_neg later, ih]
            · rw [if_neg fragment, if_neg fragment]
              by_cases cut : raw.length < off + 2
              · rw [if_pos cut, if_pos cut]
              · rw [if_neg cut, if_neg cut, index_inside (by omega), Option.bind_some, ih]

private theorem portsIndexed_eq (info : PacketInfo) {off : Nat} (inside : off + 4 ≤ raw.length) :
    portsIndexed info raw off = some (info.readPorts raw off) := by
  unfold portsIndexed
  rw [index16_inside (by omega), index16_inside (by omega)]
  rfl

private theorem populateIndexed_eq (info : PacketInfo) (raw : Bytes) (off : Option Nat)
    (proto : UInt8) :
    populateIndexed info raw off proto = some (populateL4FromBytes info raw off proto) := by
  have tcp : tcpMinHeaderLen = 20 := rfl
  have udp : udpHeaderLen = 8 := rfl
  have icmp : icmpMinHeaderLen = 4 := rfl
  unfold populateIndexed populateL4FromBytes
  cases off with
  | none => rfl
  | some off =>
      dsimp only
      split
      · split
        · rfl
        · rw [portsIndexed_eq _ (by omega), index_inside (by omega)]
          rfl
      · split
        · split
          · rfl
          · rw [portsIndexed_eq _ (by omega)]
        · split
          · split
            · rfl
            · rw [index_inside (by omega), index_inside (by omega)]
              rfl
          · rfl

private theorem parsePacketIndexed_eq (d : Decoder) (raw : Bytes) :
    ParsePacketIndexed d raw = some (ParsePacket d raw) := by
  have four : parseIPv4Indexed d raw = some (parseIPv4Packet d raw) := by
    unfold parseIPv4Indexed parseIPv4Packet
    split
    · rfl
    · cases d.ipv4 raw with
      | none => rfl
      | some ipv4 =>
          dsimp only
          split
          · rfl
          · split
            · rfl
            · rw [populateIndexed_eq]
              rfl
  have six : parseIPv6Indexed d raw = some (parseIPv6Packet d raw) := by
    unfold parseIPv6Indexed parseIPv6Packet
    split
    · rfl
    · cases d.ipv6 raw with
      | none => rfl
      | some ipv6 =>
          dsimp only
          rw [walkIndexed_eq, Option.bind_some, populateIndexed_eq]
          rfl
  unfold ParsePacketIndexed ParsePacket
  split
  · rfl
  · rw [index_inside (by omega), Option.bind_some]
    dsimp only
    split
    · exact four
    · split
      · exact six
      · rfl

end Indexing

section Chain

/-- The chain of IPv6 headers on the wire. From a header of the first number at the first
offset, headers that are present lead to one of the second number at the second offset. A
Fragment header is passed over only when its offset field is zero. -/
inductive Leads (raw : Bytes) : UInt8 → Nat → UInt8 → Nat → Prop
  | here (proto : UInt8) (off : Nat) : Leads raw proto off proto off
  | header {proto last : UInt8} {off stop : Nat} (kind : proto ∈ sized)
      (present : off + 2 ≤ raw.length)
      (rest : Leads raw (byte raw off) (off + ((byte raw (off + 1)).toNat + 1) * 8) last stop) :
      Leads raw proto off last stop
  | fragment {last : UInt8} {off stop : Nat} (present : off + 8 ≤ raw.length)
      (first : be16 raw (off + 2) / 8 = 0) (rest : Leads raw (byte raw off) (off + 8) last stop) :
      Leads raw ipProtocolIPv6Fragment off last stop

variable {raw : Bytes}

private theorem sized_of_known {proto : UInt8} {name : String}
    (known : extHeaderTypes proto = some name)
    (other : proto ≠ ipProtocolIPv6Fragment) : proto ∈ sized := by
  unfold extHeaderTypes at known
  simp only [sized, List.mem_cons, List.not_mem_nil, or_false]
  split at known
  · next hop => exact .inl hop
  · split at known
    · next routing => exact .inr (.inl routing)
    · split at known
      · next destination => exact .inr (.inr destination)
      · exact absurd known nofun

/-- What the walk reports: an L4 header that the chain leads to, and no L4 header behind a
Fragment header with a positive offset. -/
structure Reported (raw : Bytes) (proto : UInt8) (off : Nat) (frag : FragmentInfo)
    (chain : IPv6HeaderChain) : Prop where
  leads : ∀ stop, chain.l4Offset = some stop → Leads raw proto off chain.l4Proto stop
  complete : frag.l4Incomplete = false → chain.fragment.l4Incomplete = false
  later : frag.offset = 0 → 0 < chain.fragment.offset → chain.l4Offset = none

private theorem Reported.ended {proto last : UInt8} {off : Nat} {ext : List String}
    {frag : FragmentInfo} :
    Reported raw proto off frag ⟨last, none, ext, frag⟩ :=
  ⟨nofun, id, fun _ _ => rfl⟩

private theorem walk_reported (budget : Nat) (proto : UInt8) (off : Nat) (ext : List String)
    (frag : FragmentInfo) : Reported raw proto off frag (walk raw budget proto off ext frag) := by
  induction budget generalizing proto off ext frag with
  | zero => exact .ended
  | succ budget ih =>
      unfold walk
      cases known : extHeaderTypes proto with
      | none =>
          refine ⟨fun stop found => ?_, id, fun zero later => absurd later (by dsimp only; omega)⟩
          have here : off = stop := by
            dsimp only at found
            split at found
            · exact Option.some.inj found
            · exact absurd found (by simp)
          subst here
          exact .here proto off
      | some name =>
          dsimp only
          by_cases past : raw.length ≤ off
          · rw [if_pos past]
            exact .ended
          · rw [if_neg past]
            by_cases fragment : proto = ipProtocolIPv6Fragment
            · subst fragment
              rw [if_pos rfl]
              by_cases cut : raw.length < off + ipv6FragmentHeaderLen
              · rw [if_pos cut]
                exact .ended
              · rw [if_neg cut]
                by_cases later : 0 < be16 raw (off + 2) / 8
                · rw [if_pos later]
                  exact ⟨fun _ found => absurd found (by simp), fun _ => rfl, fun _ _ => rfl⟩
                · rw [if_neg later]
                  have first : be16 raw (off + 2) / 8 = 0 := by omega
                  have rest := ih (byte raw off) (off + ipv6FragmentHeaderLen) (ext ++ [name])
                    ⟨true, decide (be16 raw (off + 2) % 2 = 1), be16 raw (off + 2) / 8, false⟩
                  exact
                    ⟨fun stop found => .fragment (Nat.not_lt.mp cut) first (rest.leads stop found),
                    fun _ => rest.complete rfl, fun _ => rest.later first⟩
            · rw [if_neg fragment]
              by_cases cut : raw.length < off + 2
              · rw [if_pos cut]
                exact .ended
              · rw [if_neg cut]
                have rest := ih (byte raw off) (off + ((byte raw (off + 1)).toNat + 1) * 8)
                  (ext ++ [name]) frag
                exact ⟨fun stop found => .header (sized_of_known known fragment) (Nat.not_lt.mp cut)
                  (rest.leads stop found), rest.complete, rest.later⟩

private theorem walkFrom_later {proto : UInt8} {off stop : Nat}
    (leads : Leads raw proto off ipProtocolIPv6Fragment stop) (present : stop + 4 ≤ raw.length)
    (later : 0 < be16 raw (stop + 2) / 8) (ext : List String) (frag : FragmentInfo) :
    (walkFrom raw proto off ext frag).l4Offset = none := by
  generalize named : ipProtocolIPv6Fragment = last at leads
  induction leads generalizing ext frag with
  | here proto off =>
      subst named
      by_cases whole : off + 8 ≤ raw.length
      · obtain ⟨ext', frag', -, same⟩ := walkFrom_laterFragment whole later ext frag
        rw [same]
      · have known : extHeaderTypes ipProtocolIPv6Fragment = some "Fragment" := rfl
        have cut : raw.length < off + ipv6FragmentHeaderLen := Nat.not_le.mp whole
        rw [walkFrom, walk, known]
        simp only [if_neg (show ¬ raw.length ≤ off by omega), if_true, if_pos cut]
  | header kind here _ ih =>
      obtain ⟨⟨name, known⟩, other⟩ := sized_known kind
      rw [walkFrom_header known other here]
      exact ih present later _ _ named
  | fragment here first _ ih =>
      obtain ⟨frag', -, same⟩ := walkFrom_firstFragment here first ext frag
      rw [same]
      exact ih present later _ _ named

end Chain

section Fields

variable {raw : Bytes} {info : PacketInfo}

def NoL4 (info : PacketInfo) : Prop :=
  info.srcPort = 0 ∧ info.dstPort = 0 ∧ info.tcpFlags = .none ∧
    info.icmpType = none ∧ info.icmpCode = none

/-- The fields at an L4 header, each the bytes of the packet where its protocol has it. The
minimum header is inside the packet. -/
inductive FieldsAt (raw : Bytes) (off : Nat) (info : PacketInfo) : UInt8 → Prop
  | tcp (name : info.protocol = "TCP") (inside : off + 20 ≤ raw.length)
      (src : info.srcPort.toNat = (byte raw off).toNat * 256 + (byte raw (off + 1)).toNat)
      (dst : info.dstPort.toNat = (byte raw (off + 2)).toNat * 256 + (byte raw (off + 3)).toNat)
      (fin : info.tcpFlags.fin = (byte raw (off + 13)).toNat.testBit 0)
      (syn : info.tcpFlags.syn = (byte raw (off + 13)).toNat.testBit 1)
      (rst : info.tcpFlags.rst = (byte raw (off + 13)).toNat.testBit 2)
      (ack : info.tcpFlags.ack = (byte raw (off + 13)).toNat.testBit 4)
      (icmp : info.icmpType = none ∧ info.icmpCode = none) : FieldsAt raw off info 6
  | udp (name : info.protocol = "UDP") (inside : off + 8 ≤ raw.length)
      (src : info.srcPort.toNat = (byte raw off).toNat * 256 + (byte raw (off + 1)).toNat)
      (dst : info.dstPort.toNat = (byte raw (off + 2)).toNat * 256 + (byte raw (off + 3)).toNat)
      (flags : info.tcpFlags = .none) (icmp : info.icmpType = none ∧ info.icmpCode = none) :
      FieldsAt raw off info 17
  | icmp {proto : UInt8}
      (name : proto = 1 ∧ info.protocol = "ICMP" ∨ proto = 58 ∧ info.protocol = "ICMPv6")
      (inside : off + 4 ≤ raw.length) (ports : info.srcPort = 0 ∧ info.dstPort = 0)
      (flags : info.tcpFlags = .none) (type : info.icmpType = some (byte raw off))
      (code : info.icmpCode = some (byte raw (off + 1))) : FieldsAt raw off info proto

private theorem be16_toUInt16 (raw : Bytes) (i : Nat) :
    (UInt16.ofNat (be16 raw i)).toNat =
      (byte raw i).toNat * 256 + (byte raw (i + 1)).toNat := by
  have high := (byte raw i).toNat_lt
  have low := (byte raw (i + 1)).toNat_lt
  have fits : be16 raw i < 2 ^ 16 := by
    unfold be16
    omega
  rw [UInt16.toNat_ofNat_of_lt' fits]
  rfl

private theorem readTCPFlags_bits (flags : UInt8) :
    (readTCPFlags flags).fin = flags.toNat.testBit 0 ∧
    (readTCPFlags flags).syn = flags.toNat.testBit 1 ∧
    (readTCPFlags flags).rst = flags.toNat.testBit 2 ∧
    (readTCPFlags flags).ack = flags.toNat.testBit 4 := by
  have all : ∀ n : Fin 256,
      (readTCPFlags (UInt8.ofNat n)).fin = (n : Nat).testBit 0 ∧
      (readTCPFlags (UInt8.ofNat n)).syn = (n : Nat).testBit 1 ∧
      (readTCPFlags (UInt8.ofNat n)).rst = (n : Nat).testBit 2 ∧
      (readTCPFlags (UInt8.ofNat n)).ack = (n : Nat).testBit 4 := by
    decide +kernel
  have here := all ⟨flags.toNat, flags.toNat_lt⟩
  rwa [UInt8.ofNat_toNat] at here

private theorem populate_cases (raw : Bytes) (base : NoL4 info)
    (complete : info.fragment.l4Incomplete = false)
    (off : Option Nat) (proto : UInt8) :
    (populateL4FromBytes info raw off proto).fragment.offset = info.fragment.offset ∧
    (NoL4 (populateL4FromBytes info raw off proto) ∧
      (off = none → (populateL4FromBytes info raw off proto).fragment.l4Incomplete = false) ∨
    ∃ stop, off = some stop ∧
      (populateL4FromBytes info raw off proto).fragment.l4Incomplete = false ∧
      FieldsAt raw stop (populateL4FromBytes info raw off proto) proto) := by
  obtain ⟨src, dst, flags, type, code⟩ := base
  have none4 : NoL4 { info with protocol := protocolName proto } := ⟨src, dst, flags, type, code⟩
  unfold populateL4FromBytes
  cases off with
  | none => exact ⟨rfl, .inl ⟨none4, fun _ => complete⟩⟩
  | some stop =>
      dsimp only
      split
      · next tcp =>
        subst tcp
        split
        · exact ⟨rfl, .inl ⟨none4, nofun⟩⟩
        · next inside =>
          obtain ⟨fin, syn, rst, ack⟩ := readTCPFlags_bits (byte raw (stop + 13))
          exact ⟨rfl, .inr ⟨stop, rfl, complete, .tcp rfl (Nat.not_lt.mp inside)
            (be16_toUInt16 raw stop) (be16_toUInt16 raw (stop + 2)) fin syn rst ack ⟨type, code⟩⟩⟩
      · split
        · next udp =>
          subst udp
          split
          · exact ⟨rfl, .inl ⟨none4, nofun⟩⟩
          · next inside =>
            exact ⟨rfl, .inr ⟨stop, rfl, complete, .udp rfl (Nat.not_lt.mp inside)
              (be16_toUInt16 raw stop) (be16_toUInt16 raw (stop + 2)) flags ⟨type, code⟩⟩⟩
        · split
          · next icmp =>
            split
            · exact ⟨rfl, .inl ⟨none4, nofun⟩⟩
            · next inside =>
              refine ⟨rfl, .inr ⟨stop, rfl, complete, .icmp ?_ (Nat.not_lt.mp inside) ⟨src, dst⟩
                flags rfl rfl⟩⟩
              rcases icmp with rfl | rfl
              · exact .inl ⟨rfl, rfl⟩
              · exact .inr ⟨rfl, rfl⟩
          · exact ⟨rfl, .inl ⟨none4, nofun⟩⟩

end Fields

section Packets

variable {d : Decoder} {raw : Bytes} {info : PacketInfo}

def version (raw : Bytes) : Nat := (byte raw 0).toNat / 16

/-- The header length of an IPv4 packet, in words of 4 bytes. -/
def ihl (raw : Bytes) : Nat := (byte raw 0).toNat % 16

/-- The packet is a fragment other than the first. In IPv6, a Fragment header of its chain
says so. -/
def NonFirst (raw : Bytes) : Prop :=
  version raw = 4 ∧ 0 < be16 raw 6 % 8192 ∨
  version raw = 6 ∧ ∃ off, Leads raw (byte raw 6) 40 ipProtocolIPv6Fragment off ∧
    off + 4 ≤ raw.length ∧ 0 < be16 raw (off + 2) / 8

/-- Where the L4 header is, and its protocol number. -/
def L4At (raw : Bytes) (proto : UInt8) (off : Nat) : Prop :=
  version raw = 4 ∧ 5 ≤ ihl raw ∧ off = ihl raw * 4 ∧ proto = byte raw 9 ∨
  version raw = 6 ∧ Leads raw (byte raw 6) 40 proto off

/-- What is reported of a packet: no L4 fields and no complaint for a later fragment, none
where the header is incomplete, and otherwise those on the wire. -/
structure Honest (raw : Bytes) (info : PacketInfo) : Prop where
  later : NonFirst raw ∨ 0 < info.fragment.offset →
    NoL4 info ∧ info.fragment.l4Incomplete = false
  incomplete : info.fragment.l4Incomplete = true → NoL4 info
  fields : ¬ NoL4 info → ∃ proto off, L4At raw proto off ∧ FieldsAt raw off info proto

private theorem Honest.of_none (none4 : NoL4 info)
    (later : NonFirst raw ∨ 0 < info.fragment.offset → info.fragment.l4Incomplete = false) :
    Honest raw info :=
  ⟨fun claimed => ⟨none4, later claimed⟩, fun _ => none4, fun some4 => absurd none4 some4⟩

private theorem populate_honest (base : NoL4 info) (complete : info.fragment.l4Incomplete = false)
    {off : Option Nat} {proto : UInt8} (found : ∀ stop, off = some stop → L4At raw proto stop)
    (hidden : NonFirst raw ∨ 0 < info.fragment.offset → off = none) :
    Honest raw (populateL4FromBytes info raw off proto) := by
  obtain ⟨kept, outcome⟩ := populate_cases raw base complete off proto
  rcases outcome with ⟨none4, quiet⟩ | ⟨stop, present, whole, fields⟩
  · refine .of_none none4 fun claimed => quiet ?_
    rw [kept] at claimed
    exact hidden claimed
  · refine ⟨fun claimed => ?_, fun marked => ?_, fun _ => ⟨proto, stop, found stop present, fields⟩⟩
    · rw [kept] at claimed
      exact absurd (present.symm.trans (hidden claimed)) nofun
    · exact absurd (whole.symm.trans marked) nofun

private theorem ipv4_honest (rfc : d.RFC791) (four : version raw = 4)
    (parsed : parseIPv4Packet d raw = .ok info) : Honest raw info := by
  unfold parseIPv4Packet at parsed
  split at parsed
  · exact absurd parsed nofun
  · next long =>
    have words : (UInt8.ofNat ((byte raw 0).toNat % 16)).toNat = ihl raw := by
      have size : UInt8.size = 256 := rfl
      exact UInt8.toNat_ofNat_of_lt' (by omega)
    rw [rfc raw (Nat.not_lt.mp long)] at parsed
    dsimp only at parsed
    rw [words] at parsed
    split at parsed
    · obtain rfl := Except.ok.inj parsed
      exact .of_none ⟨rfl, rfl, rfl, rfl, rfl⟩ fun _ => rfl
    · next first =>
      have only_first : ¬ (NonFirst raw ∨ 0 < be16 raw 6 % 8192) := by
        rintro ((⟨-, later⟩ | ⟨six, -⟩) | later)
        · exact first later
        · omega
        · exact first later
      split at parsed
      · obtain rfl := Except.ok.inj parsed
        exact .of_none ⟨rfl, rfl, rfl, rfl, rfl⟩ fun claimed => absurd claimed only_first
      · next whole =>
        obtain rfl := Except.ok.inj parsed
        have enough : 5 ≤ ihl raw := by
          have header : ipv4HeaderLen = 20 := rfl
          omega
        refine populate_honest ⟨rfl, rfl, rfl, rfl, rfl⟩ rfl (fun stop here => ?_)
          fun claimed => absurd claimed only_first
        exact .inl ⟨four, enough, (Option.some.inj here).symm, rfl⟩

private theorem ipv6_honest (rfc : d.RFC8200) (six : version raw = 6)
    (parsed : parseIPv6Packet d raw = .ok info) : Honest raw info := by
  unfold parseIPv6Packet at parsed
  split at parsed
  · exact absurd parsed nofun
  · next long =>
    rw [rfc raw (Nat.not_lt.mp long)] at parsed
    obtain rfl := Except.ok.inj parsed
    have reported : Reported raw (byte raw 6) 40 .none (walkIPv6HeaderChain raw (byte raw 6)) :=
      walk_reported (raw.length + 1) (byte raw 6) 40 [] .none
    refine populate_honest ⟨rfl, rfl, rfl, rfl, rfl⟩ (reported.complete rfl)
      (fun stop here => .inr ⟨six, reported.leads stop here⟩) fun claimed => ?_
    rcases claimed with (⟨four, -⟩ | ⟨-, off, leads, present, later⟩) | later
    · omega
    · exact walkFrom_later leads present later [] .none
    · exact reported.later rfl later

/-- The parser fabricates nothing. Given that the decoder returns the fixed fields, every
packet that parses is reported honestly: no L4 field and no complaint for a fragment other
than the first, no L4 field beside an incomplete header, and every L4 field that is reported
stands in the packet, at the offset of the L4 header, under the protocol reported. No read
of the parser is out of range. -/
theorem parser_fabricates_nothing (d : Decoder) (rfc791 : d.RFC791) (rfc8200 : d.RFC8200)
    (raw : Bytes) :
    ParsePacketIndexed d raw = some (ParsePacket d raw) ∧
    ∀ info, ParsePacket d raw = .ok info → Honest raw info := by
  refine ⟨parsePacketIndexed_eq d raw, fun info parsed => ?_⟩
  unfold ParsePacket at parsed
  split at parsed
  · exact absurd parsed nofun
  · dsimp only at parsed
    split at parsed
    · next four => exact ipv4_honest rfc791 four parsed
    · split at parsed
      · next six => exact ipv6_honest rfc8200 six parsed
      · exact absurd parsed nofun

def optionThenQuery : Bytes :=
  [0x60, 0, 0, 0, 0, 16, 0, 64] ++ List.replicate 32 0 ++ [17, 0, 1, 4, 0, 0, 0, 0] ++
    [0x12, 0x34, 0, 53, 0, 8, 0, 0]

theorem optionThenQuery_honest :
    ∃ info, ParsePacket fixedFields optionThenQuery = .ok info ∧ info.srcPort = 0x1234 ∧
      info.dstPort = 53 ∧ Honest optionThenQuery info := by
  obtain ⟨-, honest⟩ := parser_fabricates_nothing fixedFields fixedFields_RFC791
    fixedFields_RFC8200 optionThenQuery
  exact ⟨_, rfl, rfl, rfl, honest _ rfl⟩

end Packets

end L3Firewall.Packet.Evidence
