/- Packet/Fragments
   source: internal/packet/parser.go
   digest: Datagrams of both families cut into fragments, and what the parser makes of them. -/

import L3Firewall.Packet.HeaderChain

set_option autoImplicit false
set_option relaxedAutoImplicit false

namespace L3Firewall.Packet.Fragments

open Packet.Parser
open HeaderChain

section Segments

/-- A TCP or UDP segment that starts with a whole header. -/
def Segment (proto : UInt8) (segment : Bytes) : Prop :=
  (proto = ipProtocolTCP ∧ tcpMinHeaderLen ≤ segment.length) ∨
    (proto = ipProtocolUDP ∧ udpHeaderLen ≤ segment.length)

def srcPort (segment : Bytes) : Nat := be16 segment 0

def dstPort (segment : Bytes) : Nat := be16 segment 2

/-- A rule on ports can judge the packet, or it is marked as one that cannot be judged. -/
def Exposed (segment : Bytes) (pi : PacketInfo) : Prop :=
  pi.fragment.l4Incomplete = true ∨
    ((pi.protocol = "TCP" ∨ pi.protocol = "UDP") ∧
      pi.srcPort = UInt16.ofNat (srcPort segment) ∧ pi.dstPort = UInt16.ofNat (dstPort segment))

private theorem populate_exposed (info : PacketInfo) (before piece rest : Bytes) {proto : UInt8}
    (segment : Segment proto (piece ++ rest)) :
    Exposed (piece ++ rest)
      (populateL4FromBytes info (before ++ piece) (some before.length) proto) := by
  have shown {n : Nat} (room : ¬ (before ++ piece).length < before.length + n) (i : Nat)
      (inside : i + 1 < n) :
      be16 (before ++ piece) (before.length + i) = be16 (piece ++ rest) i := by
    rw [List.length_append] at room
    rw [be16_append_right, be16_append_left (by omega)]
  rcases segment with ⟨rfl, -⟩ | ⟨rfl, -⟩
  · simp only [populateL4FromBytes, if_true]
    split
    · exact .inl rfl
    · next room =>
      refine .inr ⟨.inl rfl, ?_, ?_⟩
      · exact congrArg UInt16.ofNat (shown room 0 (by decide))
      · exact congrArg UInt16.ofNat (shown room 2 (by decide))
  · have other : ipProtocolUDP ≠ ipProtocolTCP := by decide
    simp only [populateL4FromBytes, if_neg other, if_true]
    split
    · exact .inl rfl
    · next room =>
      refine .inr ⟨.inr rfl, ?_, ?_⟩
      · exact congrArg UInt16.ofNat (shown room 0 (by decide))
      · exact congrArg UInt16.ofNat (shown room 2 (by decide))

end Segments

section Cuts

variable {σ : Type}

/-- Consecutive fragments from an offset on, in units of 8 bytes. Only the last one may
have a length that is no multiple of 8, and only the last one says that it is the last. -/
inductive Cut (piece : σ → Bytes) (labelled : Nat → Bool → σ → Prop) : Nat → List σ → Prop
  | last {off : Nat} {f : σ} (label : labelled off false f) : Cut piece labelled off [f]
  | more {off : Nat} {f : σ} {rest : List σ} (label : labelled off true f)
      (filled : piece f ≠ []) (aligned : 8 ∣ (piece f).length)
      (tail : Cut piece labelled (off + (piece f).length / 8) rest) :
      Cut piece labelled off (f :: rest)

variable {piece : σ → Bytes} {labelled : Nat → Bool → σ → Prop} {off : Nat} {f : σ}
  {rest : List σ}

theorem Cut.head (cut : Cut piece labelled off (f :: rest)) : ∃ more, labelled off more f := by
  cases cut with
  | last label => exact ⟨false, label⟩
  | more label filled aligned tail => exact ⟨true, label⟩

theorem Cut.offset {all : List σ} (cut : Cut piece labelled off all) {k : Nat}
    (inside : all[k]? = some f) : ∃ more off', off + k ≤ off' ∧ labelled off' more f := by
  induction cut generalizing k with
  | @last off g label =>
      cases k with
      | zero =>
          obtain rfl := Option.some.inj inside
          exact ⟨false, off, le_rfl, label⟩
      | succ k => exact absurd inside nofun
  | @more off g rest label filled aligned tail ih =>
      cases k with
      | zero =>
          obtain rfl := Option.some.inj inside
          exact ⟨true, off, le_rfl, label⟩
      | succ k =>
          obtain ⟨more, off', behind, label'⟩ := ih inside
          have size : 0 < (piece g).length := List.length_pos_iff.mpr filled
          exact ⟨more, off', by omega, label'⟩

theorem Cut.later (cut : Cut piece labelled off (f :: rest)) {g : σ} (member : g ∈ rest) :
    ∃ more off', off < off' ∧ labelled off' more g := by
  obtain ⟨k, found⟩ := List.mem_iff_getElem?.mp member
  obtain ⟨more, off', behind, label⟩ := cut.offset (k := k + 1) found
  exact ⟨more, off', by omega, label⟩

end Cuts

section IPv4

/-- An IPv4 header with its options: version, length, fragment fields and protocol. -/
structure Header4 (proto : UInt8) (offset : Nat) (more : Bool) (h : Bytes) : Prop where
  version : (byte h 0).toNat / 16 = 4
  ihl : 5 ≤ (byte h 0).toNat % 16
  size : h.length = (byte h 0).toNat % 16 * 4
  offset : be16 h 6 % 8192 = offset
  more : be16 h 6 / 8192 % 2 = more.toNat
  protocol : byte h 9 = proto

/-- A fragment is its header and its piece of the segment. -/
structure Fragment4 where
  header : Bytes
  piece : Bytes

def Fragment4.bytes (f : Fragment4) : Bytes := f.header ++ f.piece

def Labelled4 (proto : UInt8) (offset : Nat) (more : Bool) (f : Fragment4) : Prop :=
  Header4 proto offset more f.header

variable {d : Decoder} {proto : UInt8} {offset : Nat} {more : Bool} {f : Fragment4}

private theorem decode_fragment4 (layout : d.RFC791) (label : Labelled4 proto offset more f) :
    ∃ layer, d.ipv4 f.bytes = some layer ∧ layer.ihl.toNat * 4 = f.header.length ∧
      layer.fragOffset = offset ∧ layer.protocol = proto ∧
      ParsePacket d f.bytes = parseIPv4Packet d f.bytes ∧ 20 ≤ f.bytes.length := by
  obtain ⟨version, ihl, size, offsets, -, protocol⟩ := label
  have room : 20 ≤ f.header.length := by omega
  have total : 20 ≤ f.bytes.length := by
    rw [Fragment4.bytes, List.length_append]
    omega
  have zeroth : byte f.bytes 0 = byte f.header 0 := byte_append_left (by omega)
  have nibble : (byte f.header 0).toNat % 16 < UInt8.size :=
    lt_trans (Nat.mod_lt _ (by decide)) (by decide)
  refine ⟨_, layout f.bytes total, ?_, ?_, ?_, ?_, total⟩
  · rw [zeroth, size]
    exact congrArg (· * 4) (UInt8.toNat_ofNat_of_lt' nibble)
  · rw [← offsets, Fragment4.bytes, be16_append_left (by omega)]
  · rw [← protocol]
    exact byte_append_left (by omega)
  · rw [ParsePacket, if_neg (by omega), zeroth]
    exact if_pos version

theorem parse_first4 (layout : d.RFC791) (label : Labelled4 proto 0 more f) (rest : Bytes)
    (segment : Segment proto (f.piece ++ rest)) :
    ∃ pi, ParsePacket d f.bytes = .ok pi ∧ Exposed (f.piece ++ rest) pi := by
  obtain ⟨layer, decoded, ihl, first, protocol, parsed, total⟩ := decode_fragment4 layout label
  have room : ¬ layer.ihl.toNat * 4 < ipv4HeaderLen := by
    have size := label.size
    have enough := label.ihl
    rw [ihl]
    change ¬ f.header.length < 20
    omega
  rw [parsed, parseIPv4Packet, if_neg (Nat.not_lt.mpr total), decoded]
  dsimp only
  rw [if_neg (by omega), if_neg room, ihl, protocol]
  exact ⟨_, rfl, populate_exposed _ f.header f.piece rest segment⟩

theorem parse_later4 (layout : d.RFC791) (label : Labelled4 proto offset more f)
    (later : 0 < offset) :
    ∃ pi, ParsePacket d f.bytes = .ok pi ∧ pi.fragment.l4Incomplete = false := by
  obtain ⟨layer, decoded, -, offsets, -, parsed, total⟩ := decode_fragment4 layout label
  rw [parsed, parseIPv4Packet, if_neg (Nat.not_lt.mpr total), decoded]
  dsimp only
  rw [if_pos (offsets ▸ later)]
  exact ⟨_, rfl, rfl⟩

end IPv4

section IPv6

/-- An IPv6 datagram: the fixed header, the extension headers that every fragment repeats,
then Destination Options headers and a segment, which are cut. `next` is the number of
the first header of the part that is cut. -/
structure Datagram6 where
  fixed : Bytes
  fixedSize : fixed.length = ipv6HeaderLen
  version : (byte fixed 0).toNat / 16 = 6
  unfragmentable : List Bytes
  chain : Chain sized (byte fixed 6) unfragmentable ipProtocolIPv6Fragment
  next : UInt8
  options : List Bytes
  proto : UInt8
  optionsChain : Chain [ipProtocolIPv6Destination] next options proto
  segment : Bytes
  header : Segment proto segment

def Datagram6.fragmentable (g : Datagram6) : Bytes := g.options.flatten ++ g.segment

/-- What a fragment adds to the repeated headers: its own fixed header, its Fragment
header and its piece. -/
structure Fragment6 where
  fixed : Bytes
  fragment : Bytes
  piece : Bytes

def Datagram6.bytes (g : Datagram6) (f : Fragment6) : Bytes :=
  f.fixed ++ g.unfragmentable.flatten ++ (f.fragment ++ f.piece)

/-- The fixed header is repeated up to its payload length, in bytes 4 and 5. -/
structure Labelled6 (g : Datagram6) (offset : Nat) (more : Bool) (f : Fragment6) : Prop where
  fixedSize : f.fixed.length = ipv6HeaderLen
  fixed : ∀ i, i ≠ 4 → i ≠ 5 → byte f.fixed i = byte g.fixed i
  fragmentSize : f.fragment.length = ipv6FragmentHeaderLen
  next : byte f.fragment 0 = g.next
  offset : be16 f.fragment 2 / 8 = offset
  more : be16 f.fragment 2 % 2 = more.toNat

/-- No rule on ports or flags has anything to judge, and nothing marks the packet. -/
structure Hidden (pi : PacketInfo) : Prop where
  source : ∃ a, pi.srcIP = Net.Address.IP.String a
  destination : ∃ a, pi.dstIP = Net.Address.IP.String a
  protocol : pi.protocol = "TCP" ∨ pi.protocol = "UDP" ∨ pi.protocol = "IP-60"
  srcPort : pi.srcPort = 0
  dstPort : pi.dstPort = 0
  tcpFlags : pi.tcpFlags = .none
  unmarked : pi.fragment.l4Incomplete = false

variable {d : Decoder} {g : Datagram6} {offset : Nat} {more : Bool} {f : Fragment6}

private theorem Segment.extHeaderTypes_none {proto : UInt8} {segment : Bytes}
    (segment : Segment proto segment) : extHeaderTypes proto = none := by
  rcases segment with ⟨rfl, -⟩ | ⟨rfl, -⟩ <;> rfl

private theorem Segment.protocolName_eq {proto : UInt8} {segment : Bytes}
    (segment : Segment proto segment) :
    protocolName proto = "TCP" ∨ protocolName proto = "UDP" := by
  rcases segment with ⟨rfl, -⟩ | ⟨rfl, -⟩
  · exact .inl rfl
  · exact .inr rfl

private theorem chain_first {kind first last : UInt8} {headers : List Bytes}
    (chain : Chain [kind] first headers last) : first = kind ∨ first = last := by
  cases chain with
  | nil => exact .inr rfl
  | cons kind size tail => exact .inl (List.mem_singleton.mp kind)

private theorem walkFrom_past {first last : UInt8} {headers : List Bytes}
    (chain : Chain [ipProtocolIPv6Destination] first headers last)
    (l4 : extHeaderTypes last = none) {raw : Bytes} {off : Nat} (past : raw.length ≤ off)
    (ext : List String) (frag : FragmentInfo) :
    walkFrom raw first off ext frag = ⟨first, none, ext, frag⟩ := by
  rcases chain_first chain with rfl | rfl
  · exact walkFrom_truncated destination_known past
  · rw [walkFrom_l4 l4, if_neg (Nat.not_lt.mpr past)]

/-- A packet that ends inside the options, or right behind them, has no L4 header for
the walk. The induction follows the options; what is left of the piece keeps its
alignment, so that a header that starts inside it shows its first two bytes. -/
private theorem walkFrom_cut {first last : UInt8} {headers : List Bytes}
    (chain : Chain [ipProtocolIPv6Destination] first headers last)
    (l4 : extHeaderTypes last = none) (before piece rest tail : Bytes)
    (aligned : 8 ∣ piece.length) (whole : piece ++ rest = headers.flatten ++ tail)
    (short : piece.length ≤ headers.flatten.length) (ext : List String) (frag : FragmentInfo) :
    ∃ proto ext', (proto = ipProtocolIPv6Destination ∨ proto = last) ∧
      walkFrom (before ++ piece) first before.length ext frag = ⟨proto, none, ext', frag⟩ := by
  induction chain generalizing before piece ext with
  | nil proto =>
      obtain rfl : piece = [] := List.length_eq_zero_iff.mp (Nat.le_zero.mp short)
      refine ⟨proto, ext, .inr rfl, ?_⟩
      exact walkFrom_past (.nil proto) l4 (by simp) ext frag
  | @cons proto last h others kind size following ih =>
      obtain rfl := List.mem_singleton.mp kind
      by_cases empty : piece = []
      · subst empty
        refine ⟨_, ext, .inl rfl, ?_⟩
        exact walkFrom_truncated destination_known (by simp)
      have filled : 0 < piece.length := List.length_pos_iff.mpr empty
      have start (i : Nat) (inside : i < 8) :
          byte (before ++ piece) (before.length + i) = byte h i := by
        have same : byte (piece ++ rest) i = byte h i := by
          rw [whole, List.flatten_cons, List.append_assoc]
          exact byte_append_left (by omega)
        rw [byte_append_right, ← same]
        exact (byte_append_left (by omega)).symm
      have present : before.length + 2 ≤ (before ++ piece).length := by
        rw [List.length_append]
        omega
      have moved := walkFrom_header destination_known (by decide) present ext frag
      rw [start 1 (by decide), ← size] at moved
      have zeroth := start 0 (by decide)
      rw [Nat.add_zero] at zeroth
      rw [zeroth] at moved
      by_cases inside : h.length ≤ piece.length
      · -- The header is on the wire as a whole; the walk goes on behind it.
        obtain ⟨left, rfl⟩ : ∃ left, piece = h ++ left := by
          refine ⟨piece.drop h.length, ?_⟩
          have start : h = (piece ++ rest).take h.length := by
            rw [whole, List.flatten_cons, List.append_assoc, List.take_left']
            rfl
          rw [List.take_append_of_le_length inside] at start
          exact ((congrArg (· ++ piece.drop h.length) start).trans
            (List.take_append_drop _ _)).symm
        rw [List.append_assoc, List.flatten_cons, List.append_assoc] at whole
        have behind : left ++ rest = others.flatten ++ tail := List.append_cancel_left whole
        have left_aligned : 8 ∣ left.length := by
          rw [List.length_append] at aligned
          exact (Nat.dvd_add_right ⟨_, by rw [size, Nat.mul_comm]⟩).mp aligned
        have left_short : left.length ≤ others.flatten.length := by
          rw [List.length_append, List.flatten_cons, List.length_append] at short
          omega
        obtain ⟨proto, ext', which, walked⟩ :=
          ih l4 (before ++ h) left left_aligned behind left_short (ext ++ ["Destination"])
        refine ⟨proto, ext', which, ?_⟩
        rw [moved, ← List.append_assoc, ← List.length_append]
        exact walked
      · refine ⟨byte h 0, ext ++ ["Destination"], chain_first following, ?_⟩
        rw [moved]
        exact walkFrom_past following l4 (by rw [List.length_append]; omega) _ _

private theorem walk_fragment6 (layout : d.RFC8200) (label : Labelled6 g offset more f) :
    ∃ layer ext, d.ipv6 (g.bytes f) = some layer ∧
      ParsePacket d (g.bytes f) = parseIPv6Packet d (g.bytes f) ∧
      40 ≤ (g.bytes f).length ∧
      walkIPv6HeaderChain (g.bytes f) layer.nextHeader =
        walkFrom (g.bytes f) ipProtocolIPv6Fragment
          (f.fixed ++ g.unfragmentable.flatten).length ext .none := by
  have size : f.fixed.length = 40 := label.fixedSize
  have total : 40 ≤ (g.bytes f).length := by
    rw [Datagram6.bytes, List.length_append, List.length_append]
    omega
  have fixed (i : Nat) (inside : i < 40) (four : i ≠ 4) (five : i ≠ 5) :
      byte (g.bytes f) i = byte g.fixed i := by
    rw [← label.fixed i four five, Datagram6.bytes, List.append_assoc]
    exact byte_append_left (by omega)
  have next := fixed 6 (by decide) (by decide) (by decide)
  have version := fixed 0 (by decide) (by decide) (by decide)
  obtain ⟨ext, walked⟩ := walkFrom_chain (List.Subset.refl sized) g.chain f.fixed
    (f.fragment ++ f.piece) [] .none
  refine ⟨_, ext, layout _ total, ?_, total, ?_⟩
  · rw [ParsePacket, if_neg (by omega), version]
    simp only [g.version]
    rfl
  · change walkFrom (g.bytes f) (byte (g.bytes f) 6) ipv6HeaderLen [] .none = _
    rw [next, ← label.fixedSize, List.length_append]
    exact walked

private theorem read_fragment6 (label : Labelled6 g offset more f) :
    (f.fixed ++ g.unfragmentable.flatten).length + 8 ≤ (g.bytes f).length ∧
      byte (g.bytes f) (f.fixed ++ g.unfragmentable.flatten).length = g.next ∧
      be16 (g.bytes f) ((f.fixed ++ g.unfragmentable.flatten).length + 2) / 8 = offset := by
  have size : f.fragment.length = 8 := label.fragmentSize
  refine ⟨?_, ?_, ?_⟩
  · simp only [Datagram6.bytes, List.length_append]
    omega
  · rw [← label.next, Datagram6.bytes, ← Nat.add_zero (List.length _), byte_append_right]
    exact byte_append_left (by omega)
  · rw [← label.offset, Datagram6.bytes, be16_append_right, be16_append_left (by omega)]

private theorem walk_first6 (layout : d.RFC8200) (label : Labelled6 g 0 more f) :
    ∃ layer ext frag, d.ipv6 (g.bytes f) = some layer ∧
      ParsePacket d (g.bytes f) = parseIPv6Packet d (g.bytes f) ∧
      40 ≤ (g.bytes f).length ∧ frag.l4Incomplete = false ∧
      walkIPv6HeaderChain (g.bytes f) layer.nextHeader =
        walkFrom (g.bytes f) g.next
          (f.fixed ++ g.unfragmentable.flatten ++ f.fragment).length ext frag := by
  obtain ⟨layer, ext, decoded, parsed, total, walked⟩ := walk_fragment6 layout label
  obtain ⟨present, next, offsets⟩ := read_fragment6 label
  obtain ⟨frag, unmarked, passed⟩ := walkFrom_firstFragment present offsets ext .none
  have place : (f.fixed ++ g.unfragmentable.flatten).length + 8 =
      (f.fixed ++ g.unfragmentable.flatten ++ f.fragment).length := by
    simp only [List.length_append, label.fragmentSize]
    rfl
  refine ⟨layer, ext ++ ["Fragment"], frag, decoded, parsed, total, unmarked, ?_⟩
  rw [walked, passed, next, place]

private theorem parse_hidden6 {raw : Bytes} {layer : IPv6Layer} {proto : UInt8} {ext : List String}
    {frag : FragmentInfo} (decoded : d.ipv6 raw = some layer)
    (parsed : ParsePacket d raw = parseIPv6Packet d raw) (total : 40 ≤ raw.length)
    (walked : walkIPv6HeaderChain raw layer.nextHeader = ⟨proto, none, ext, frag⟩)
    (unmarked : frag.l4Incomplete = false)
    (named : protocolName proto = "TCP" ∨ protocolName proto = "UDP" ∨
      protocolName proto = "IP-60") :
    ∃ pi, ParsePacket d raw = .ok pi ∧ Hidden pi := by
  rw [parsed, parseIPv6Packet, if_neg (Nat.not_lt.mpr total), decoded]
  dsimp only
  rw [walked]
  exact ⟨_, rfl, ⟨⟨_, rfl⟩, ⟨_, rfl⟩, named, rfl, rfl, rfl, unmarked⟩⟩

private theorem Datagram6.named (g : Datagram6) {proto : UInt8}
    (which : proto = ipProtocolIPv6Destination ∨ proto = g.proto) :
    protocolName proto = "TCP" ∨ protocolName proto = "UDP" ∨ protocolName proto = "IP-60" := by
  rcases which with rfl | rfl
  · exact .inr (.inr (by decide))
  · exact g.header.protocolName_eq.imp_right .inl

theorem parse_later6 (layout : d.RFC8200) (label : Labelled6 g offset more f)
    (later : 0 < offset) : ∃ pi, ParsePacket d (g.bytes f) = .ok pi ∧ Hidden pi := by
  obtain ⟨layer, ext, decoded, parsed, total, walked⟩ := walk_fragment6 layout label
  obtain ⟨present, next, offsets⟩ := read_fragment6 label
  obtain ⟨ext', frag, unmarked, ended⟩ :=
    walkFrom_laterFragment present (offsets ▸ later) ext .none
  rw [ended, next] at walked
  exact parse_hidden6 decoded parsed total walked unmarked (g.named (chain_first g.optionsChain))

theorem parse_first6_hidden (layout : d.RFC8200) (label : Labelled6 g 0 more f) (rest : Bytes)
    (whole : f.piece ++ rest = g.fragmentable) (aligned : 8 ∣ f.piece.length)
    (short : f.piece.length ≤ g.options.flatten.length) :
    ∃ pi, ParsePacket d (g.bytes f) = .ok pi ∧ Hidden pi := by
  obtain ⟨layer, ext, frag, decoded, parsed, total, unmarked, walked⟩ := walk_first6 layout label
  have split : g.bytes f = (f.fixed ++ g.unfragmentable.flatten ++ f.fragment) ++ f.piece := by
    rw [Datagram6.bytes, List.append_assoc _ f.fragment]
  obtain ⟨proto, ext', which, ended⟩ := walkFrom_cut g.optionsChain g.header.extHeaderTypes_none
    (f.fixed ++ g.unfragmentable.flatten ++ f.fragment) f.piece rest g.segment aligned whole short
    ext frag
  rw [split, ended, ← split] at walked
  exact parse_hidden6 decoded parsed total walked unmarked (g.named which)

theorem parse_first6_exposed (layout : d.RFC8200) (label : Labelled6 g 0 more f) (rest : Bytes)
    (whole : f.piece ++ rest = g.fragmentable)
    (long : g.options.flatten.length < f.piece.length) :
    ∃ pi, ParsePacket d (g.bytes f) = .ok pi ∧ Exposed g.segment pi := by
  obtain ⟨layer, ext, frag, decoded, parsed, total, unmarked, walked⟩ := walk_first6 layout label
  -- The options are on the wire as a whole, and something of the segment behind them.
  obtain ⟨start, piece, segment⟩ : ∃ start, f.piece = g.options.flatten ++ start ∧
      start ++ rest = g.segment := by
    obtain ⟨start, same⟩ : g.options.flatten <+: f.piece :=
      List.prefix_of_prefix_length_le ⟨g.segment, whole.symm⟩ ⟨rest, rfl⟩ long.le
    refine ⟨start, same.symm, ?_⟩
    rw [← same, List.append_assoc] at whole
    exact List.append_cancel_left whole
  have split : g.bytes f =
      (f.fixed ++ g.unfragmentable.flatten ++ f.fragment) ++ g.options.flatten ++ start := by
    simp only [Datagram6.bytes, piece, List.append_assoc]
  obtain ⟨ext', through⟩ := walkFrom_chain
    (List.cons_subset.mpr ⟨by decide, List.nil_subset sized⟩) g.optionsChain
    (f.fixed ++ g.unfragmentable.flatten ++ f.fragment) start ext frag
  have inside : (f.fixed ++ g.unfragmentable.flatten ++ f.fragment ++ g.options.flatten).length <
      (g.bytes f).length := by
    rw [piece, List.length_append] at long
    simp only [split, List.length_append]
    omega
  rw [split, through, ← split, ← List.length_append,
    walkFrom_l4 g.header.extHeaderTypes_none, if_pos inside] at walked
  rw [parsed, parseIPv6Packet, if_neg (Nat.not_lt.mpr total), decoded]
  dsimp only
  rw [walked]
  dsimp only
  refine ⟨_, rfl, ?_⟩
  rw [split, ← segment]
  exact populate_exposed _ _ start rest (segment ▸ g.header)

end IPv6

end L3Firewall.Packet.Fragments
