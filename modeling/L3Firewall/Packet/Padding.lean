/- Packet/Padding
   source: internal/packet/parser.go
   digest: What bytes behind the datagram can change in the evidence about a packet. -/

import L3Firewall.Foundation.Decimal
import L3Firewall.Packet.Denotation

set_option autoImplicit false
set_option relaxedAutoImplicit false

namespace L3Firewall.Packet.Padding

open Foundation.Decimal (toList_repr_inj)
open Packet.Parser
open Packet.HeaderChain (byte_append_left byte_append_right be16_append_left be16_append_right)
open Packet.Evidence (version ihl)
open Packet.Denotation

/-! What is reported of a packet, as a function of its bytes. -/

/-- The fields that policies and counters read, apart from the addresses. -/
structure Evidence where
  protocol : String
  srcPort : UInt16
  dstPort : UInt16
  tcpFlags : TCPFlags
  icmpType : Option UInt8
  icmpCode : Option UInt8
  fragment : FragmentInfo
  deriving DecidableEq

def evidence (info : PacketInfo) : Evidence :=
  ⟨info.protocol, info.srcPort, info.dstPort, info.tcpFlags, info.icmpType, info.icmpCode,
    info.fragment⟩

/-- The bytes of the L4 header that the parser asks for. -/
def minHeader (proto : UInt8) : Nat :=
  if proto = ipProtocolTCP then tcpMinHeaderLen
  else if proto = ipProtocolUDP then udpHeaderLen
  else if proto = ipProtocolICMPv4 ∨ proto = ipProtocolICMPv6 then icmpMinHeaderLen
  else 0

def bare (proto : UInt8) (fragment : FragmentInfo) : Evidence :=
  ⟨protocolName proto, 0, 0, .none, none, none, fragment⟩

def filled (raw : Bytes) (off : Nat) (proto : UInt8) (fragment : FragmentInfo) : Evidence :=
  if proto = ipProtocolTCP then
    ⟨protocolName proto, UInt16.ofNat (be16 raw off), UInt16.ofNat (be16 raw (off + 2)),
      readTCPFlags (byte raw (off + 13)), none, none, fragment⟩
  else if proto = ipProtocolUDP then
    ⟨protocolName proto, UInt16.ofNat (be16 raw off), UInt16.ofNat (be16 raw (off + 2)), .none,
      none, none, fragment⟩
  else ⟨protocolName proto, 0, 0, .none, some (byte raw off), some (byte raw (off + 1)), fragment⟩

def l4Evidence (raw : Bytes) (off : Option Nat) (proto : UInt8) (fragment : FragmentInfo) :
    Evidence :=
  match off with
  | none => bare proto fragment
  | some off =>
      if minHeader proto = 0 then bare proto fragment
      else if raw.length < off + minHeader proto then
        bare proto { fragment with l4Incomplete := true }
      else filled raw off proto fragment

def fragment4 (raw : Bytes) : FragmentInfo :=
  let more := decide (UInt8.ofNat ((byte raw 6).toNat / 32) &&& ipv4MoreFragments ≠ 0)
  ⟨decide (0 < be16 raw 6 % 8192) || more, more, be16 raw 6 % 8192, false⟩

def evidence4 (raw : Bytes) : Evidence :=
  if 0 < be16 raw 6 % 8192 then bare (byte raw 9) (fragment4 raw)
  else l4Evidence raw (some (ihl raw * 4)) (byte raw 9) (fragment4 raw)

def evidence6 (raw : Bytes) : Evidence :=
  let chain := walkIPv6HeaderChain raw (byte raw 6)
  l4Evidence raw chain.l4Offset chain.l4Proto chain.fragment

private theorem evidence_populate (d : Decoder) (raw : Bytes) (src dst : String)
    (fragment : FragmentInfo)
    (ext : List String) (off : Option Nat) (proto : UInt8) :
    evidence (populateL4FromBytes (baseInfo d raw src dst fragment ext) raw off proto) =
      l4Evidence raw off proto fragment := by
  cases off with
  | none => rfl
  | some off =>
      simp only [populateL4FromBytes, l4Evidence, minHeader, filled]
      by_cases tcp : proto = ipProtocolTCP
      · simp only [tcp, if_true]
        split <;> rfl
      · simp only [tcp, if_false]
        by_cases udp : proto = ipProtocolUDP
        · simp only [udp, if_true]
          split <;> rfl
        · simp only [udp, if_false]
          by_cases icmp : proto = ipProtocolICMPv4 ∨ proto = ipProtocolICMPv6
          · simp only [icmp, if_true]
            split <;> rfl
          · simp only [icmp, if_false]
            rfl

variable {d : Decoder} {raw D pad : Bytes} {proto : UInt8} {off : Nat} {fragment : FragmentInfo}

private theorem parse_evidence4 (rfc791 : d.RFC791) (long : 20 ≤ raw.length)
    (four : version raw = 4)
    (words : 20 ≤ ihl raw * 4) :
    ∃ info, ParsePacket d raw = .ok info ∧ evidence info = evidence4 raw := by
  have some4 : ¬ raw.length < 1 := by omega
  have all : ¬ raw.length < 20 := by omega
  have small : (byte raw 0).toNat % 16 < 2 ^ 8 := by omega
  have length : (UInt8.ofNat ((byte raw 0).toNat % 16)).toNat * 4 = ihl raw * 4 := by
    rw [UInt8.toNat_ofNat', Nat.mod_eq_of_lt small]
    rfl
  rw [ParsePacket, if_neg some4]
  simp only [version] at four
  simp only [four, if_true]
  rw [parseIPv4Packet, if_neg all, rfc791 raw long]
  dsimp only
  rw [length, evidence4]
  by_cases later : 0 < be16 raw 6 % 8192
  · rw [if_pos later, if_pos later]
    exact ⟨_, rfl, rfl⟩
  · have whole : ¬ ihl raw * 4 < ipv4HeaderLen := Nat.not_lt.mpr words
    rw [if_neg later, if_neg later, if_neg whole]
    exact ⟨_, rfl, evidence_populate ..⟩

private theorem parse_evidence6 (rfc8200 : d.RFC8200) (long : 40 ≤ raw.length)
    (six : version raw = 6) :
    ∃ info, ParsePacket d raw = .ok info ∧ evidence info = evidence6 raw := by
  have some6 : ¬ raw.length < 1 := by omega
  have all : ¬ raw.length < 40 := by omega
  have four : ¬ (byte raw 0).toNat / 16 = 4 := fun four => by simp [version, four] at six
  have six' : (byte raw 0).toNat / 16 = 6 := six
  rw [ParsePacket, if_neg some6]
  simp only [six', if_true]
  rw [if_neg (by decide), parseIPv6Packet, if_neg all, rfc8200 raw long]
  exact ⟨_, rfl, evidence_populate ..⟩

/-! The L4 header. -/

/-- The datagram has the L4 header that the parser asks for, when it asks for one. -/
def Holds (D : Bytes) (proto : UInt8) (off : Nat) : Prop :=
  minHeader proto = 0 ∨ off + minHeader proto ≤ D.length

private theorem minHeader_le (proto : UInt8) : minHeader proto ≤ 20 := by
  unfold minHeader
  split
  · exact Nat.le_refl 20
  · split
    · decide
    · split <;> decide

private theorem minHeader_ge (asked : minHeader proto ≠ 0) : 4 ≤ minHeader proto := by
  revert asked
  unfold minHeader
  split
  · decide
  · split
    · decide
    · split <;> decide

private theorem l4Evidence_without (none4 : minHeader proto = 0) (off : Option Nat) :
    l4Evidence raw off proto fragment = bare proto fragment := by
  cases off with
  | none => rfl
  | some off => rw [l4Evidence, if_pos none4]

private theorem filled_append (within : off + minHeader proto ≤ D.length)
    (asked : minHeader proto ≠ 0) :
    filled (D ++ pad) off proto fragment = filled D off proto fragment := by
  unfold filled minHeader at *
  by_cases tcp : proto = ipProtocolTCP
  · rw [if_pos tcp] at within
    have long : off + 20 ≤ D.length := within
    rw [if_pos tcp, if_pos tcp, be16_append_left (by omega), be16_append_left (by omega),
      byte_append_left (by omega)]
  · rw [if_neg tcp] at within asked
    rw [if_neg tcp, if_neg tcp]
    by_cases udp : proto = ipProtocolUDP
    · rw [if_pos udp] at within
      have long : off + 8 ≤ D.length := within
      rw [if_pos udp, if_pos udp, be16_append_left (by omega), be16_append_left (by omega)]
    · rw [if_neg udp] at within asked
      rw [if_neg udp, if_neg udp]
      by_cases icmp : proto = ipProtocolICMPv4 ∨ proto = ipProtocolICMPv6
      · rw [if_pos icmp] at within
        have long : off + 4 ≤ D.length := within
        rw [byte_append_left (by omega), byte_append_left (by omega)]
      · exact absurd (if_neg icmp) asked

private theorem l4Evidence_append (holds : Holds D proto off) :
    l4Evidence (D ++ pad) (some off) proto fragment = l4Evidence D (some off) proto fragment := by
  by_cases asked : minHeader proto = 0
  · rw [l4Evidence_without asked, l4Evidence_without asked]
  · have within : off + minHeader proto ≤ D.length := holds.resolve_left asked
    have still : ¬ (D ++ pad).length < off + minHeader proto := by
      rw [List.length_append]
      omega
    rw [l4Evidence, l4Evidence, if_neg asked, if_neg asked, if_neg still,
      if_neg (Nat.not_lt.mpr within), filled_append within asked]

private theorem filled_fragment : (filled raw off proto fragment).fragment = fragment := by
  unfold filled
  split
  · rfl
  · split <;> rfl

private theorem l4Evidence_incomplete (asked : minHeader proto ≠ 0)
    (clear : fragment.l4Incomplete = false) :
    (l4Evidence raw (some off) proto fragment).fragment.l4Incomplete =
      decide (raw.length < off + minHeader proto) := by
  rw [l4Evidence, if_neg asked]
  split
  · next short => exact (decide_eq_true short).symm
  · next long => rw [filled_fragment, clear, decide_eq_false long]

/-! IPv4. -/

/-- The datagram is a later fragment or has its L4 header. -/
def Closed4 (D : Bytes) : Prop := 0 < be16 D 6 % 8192 ∨ Holds D (byte D 9) (ihl D * 4)

private theorem evidence4_append (long : 20 ≤ D.length) :
    evidence4 (D ++ pad) =
      if 0 < be16 D 6 % 8192 then bare (byte D 9) (fragment4 D)
      else l4Evidence (D ++ pad) (some (ihl D * 4)) (byte D 9) (fragment4 D) := by
  unfold evidence4 fragment4 ihl
  rw [be16_append_left (by omega), byte_append_left (by omega), byte_append_left (by omega),
    byte_append_left (by omega)]

private theorem closed4_iff (long : 20 ≤ D.length) (header : ihl D * 4 ≤ D.length) :
    (∀ pad pad', evidence4 (D ++ pad) = evidence4 (D ++ pad')) ↔ Closed4 D := by
  constructor
  · intro same
    by_contra open4
    obtain ⟨first, missing⟩ := not_or.mp open4
    obtain ⟨asked, short⟩ := not_or.mp missing
    have bound := minHeader_le (byte D 9)
    have clear : (fragment4 D).l4Incomplete = false := rfl
    -- Without padding the header is incomplete, 20 bytes of padding complete it.
    have bare := same [] (List.replicate 20 0)
    rw [evidence4_append long, evidence4_append long, if_neg first, if_neg first] at bare
    have flags := congrArg (fun e => e.fragment.l4Incomplete) bare
    simp only [l4Evidence_incomplete asked clear, List.append_nil, List.length_append,
      List.length_replicate] at flags
    rw [decide_eq_true (Nat.not_le.mp short), decide_eq_false (by omega)] at flags
    exact absurd flags (by simp)
  · intro closed pad pad'
    rw [evidence4_append long, evidence4_append long]
    split
    · rfl
    · next first =>
        have holds : Holds D (byte D 9) (ihl D * 4) := closed.resolve_left first
        rw [l4Evidence_append holds, l4Evidence_append holds]

/-! IPv6. -/

variable {n last : Node} {passed : List Node}

private theorem next_append (pad : Bytes) (goes : n.ends D = false) :
    n.ends (D ++ pad) = false ∧ n.next (D ++ pad) = n.next D := by
  obtain ⟨extends_, within, now⟩ := goes_inside goes
  have two := needed_pos n
  have uncut : n.off + n.needed ≤ D.length + pad.length := by omega
  have first : byte (D ++ pad) n.off = byte D n.off := byte_append_left (by omega)
  by_cases fragment : n.isFragment = true
  · have whole : n.off + 8 ≤ D.length := by simpa [Node.needed, fragment] using within
    have word : be16 (D ++ pad) (n.off + 2) = be16 D (n.off + 2) := be16_append_left (by omega)
    constructor
    · have zero : be16 D (n.off + 2) < 8 := by
        simpa [Node.later, Node.fragment, fragment, whole] using now
      simp [Node.ends, Node.cut, Node.later, Node.fragment, extends_, uncut, word, zero]
    · simp [Node.next, Node.length, fragment, first]
  · have second : byte (D ++ pad) (n.off + 1) = byte D (n.off + 1) := byte_append_left (by omega)
    constructor
    · simp [Node.ends, Node.cut, Node.later, extends_, uncut, fragment]
    · simp [Node.next, Node.length, first, second]

private theorem fragment_append (pad : Bytes) (whole : n.off + 8 ≤ D.length) :
    n.fragment (D ++ pad) = n.fragment D := by
  rw [Node.fragment, Node.fragment, be16_append_left (by omega)]

private theorem seen_append (decided : n.isFragment = true → n.off + 8 ≤ D.length) :
    seen (D ++ pad) fragment n = seen D fragment n := by
  unfold seen
  by_cases isFragment : n.isFragment = true
  · have whole := decided isFragment
    have still : n.off + 8 ≤ (D ++ pad).length := by
      rw [List.length_append]
      omega
    simp only [isFragment, whole, still, fragment_append pad whole]
  · simp [isFragment]

private theorem Chain.grow (chain : Chain D n passed last) {more : List Node} {last' : Node}
    (rest : Chain (D ++ pad) last more last') : Chain (D ++ pad) n (passed ++ more) last' := by
  induction chain with
  | stop => exact rest
  | @pass n last passed goes further ih =>
      obtain ⟨still, same⟩ := next_append pad goes
      refine .pass still ?_
      rw [same]
      exact ih rest

private theorem Chain.passed_seen (chain : Chain D n passed last) (known : FragmentInfo) :
    passed.foldl (seen (D ++ pad)) known = passed.foldl (seen D) known := by
  induction chain generalizing known with
  | stop => rfl
  | @pass n last passed goes further ih =>
      obtain ⟨-, within, -⟩ := goes_inside goes
      have same : seen (D ++ pad) known n = seen D known n :=
        seen_append fun fragment => by simpa [Node.needed, fragment] using within
      rw [List.foldl_cons, List.foldl_cons, same, ih]

private theorem Chain.passed_first (chain : Chain D n passed last) (known : FragmentInfo)
    (first : known.offset = 0 ∧ known.l4Incomplete = false) :
    (passed.foldl (seen D) known).offset = 0 ∧
      (passed.foldl (seen D) known).l4Incomplete = false := by
  induction chain generalizing known with
  | stop => exact first
  | @pass n last passed goes further ih =>
      obtain ⟨-, -, now⟩ := goes_inside goes
      apply ih (seen D known n)
      unfold seen
      split
      · next whole =>
          simp only [Bool.and_eq_true, decide_eq_true_eq] at whole
          refine ⟨?_, rfl⟩
          have zero : ¬ 0 < (n.fragment D).offset := by
            simpa [Node.later, whole.1, whole.2] using now
          omega
      · exact first

private theorem walked_evidence (chain : Chain raw ⟨byte raw 6, 40⟩ passed last) :
    evidence6 raw = l4Evidence raw (result raw [] .none passed last).l4Offset
      (result raw [] .none passed last).l4Proto (result raw [] .none passed last).fragment := by
  have short := chain.short
  have walked : walkIPv6HeaderChain raw (byte raw 6) = result raw [] .none passed last :=
    chain.walked (by omega) [] .none
  unfold evidence6
  rw [walked]

private theorem evidence6_later (chain : Chain raw ⟨byte raw 6, 40⟩ passed last)
    (later : last.later raw = true) :
    evidence6 raw = bare (byte raw last.off) (last.fragment raw) := by
  obtain ⟨fragment, whole, extends_, -⟩ := later_whole later
  rw [walked_evidence chain]
  simp [result, later, extends_, seen, fragment, whole, l4Evidence]

private theorem evidence6_cut (chain : Chain raw ⟨byte raw 6, 40⟩ passed last)
    (cut : last.cut raw = true) :
    evidence6 raw = bare last.proto (passed.foldl (seen raw) .none) := by
  obtain ⟨extends_, short⟩ := (Bool.and_eq_true _ _).mp cut
  have partly : (last.isFragment && decide (last.off + 8 ≤ raw.length)) = false := by
    by_cases fragment : last.isFragment = true
    · have missing : raw.length < last.off + 8 := by simpa [Node.needed, fragment] using short
      rw [decide_eq_false (Nat.not_le.mpr missing), Bool.and_false]
    · rw [Bool.eq_false_iff.mpr fragment, Bool.false_and]
  rw [walked_evidence chain]
  simp [result, Node.later, extends_, seen, partly, l4Evidence]

private theorem evidence6_upper (chain : Chain raw ⟨byte raw 6, 40⟩ passed last)
    (upper : last.extends = false) :
    evidence6 raw = l4Evidence raw (if last.off < raw.length then some last.off else none)
      last.proto (passed.foldl (seen raw) .none) := by
  have other : last.isFragment = false := by
    by_contra fragment
    have known := fragment_name (Bool.eq_true_of_not_eq_false fragment)
    simp [extends_eq, known] at upper
  rw [walked_evidence chain]
  simp [result, Node.later, upper, other, seen]

/-- The chain of the datagram ends at the header of a later fragment, or at an L4 header that
the datagram has. -/
def Closed6 (D : Bytes) : Prop :=
  ∃ passed last, Chain D ⟨byte D 6, 40⟩ passed last ∧
    (last.later D = true ∨ last.extends = false ∧ Holds D last.proto last.off)

private theorem grown (long : 40 ≤ D.length) (chain : Chain D ⟨byte D 6, 40⟩ passed last)
    {more : List Node} {last' : Node} (rest : Chain (D ++ pad) last more last') :
    Chain (D ++ pad) ⟨byte (D ++ pad) 6, 40⟩ (passed ++ more) last' := by
  rw [byte_append_left (by omega)]
  exact Chain.grow chain rest

private theorem stopped (long : 40 ≤ D.length) (chain : Chain D ⟨byte D 6, 40⟩ passed last)
    (pad : Bytes)
    (ends : last.ends (D ++ pad) = true) :
    Chain (D ++ pad) ⟨byte (D ++ pad) 6, 40⟩ passed last := by
  have whole := grown long chain (.stop ends)
  rwa [List.append_nil] at whole

private theorem closed6_append (long : 40 ≤ D.length) (closed : Closed6 D) (pad : Bytes) :
    evidence6 (D ++ pad) = evidence6 D := by
  obtain ⟨passed, last, chain, later | ⟨upper, holds⟩⟩ := closed
  · obtain ⟨fragment, whole, -, -⟩ := later_whole later
    have word := fragment_append pad whole
    have still : last.later (D ++ pad) = true := by
      have more : last.off + 8 ≤ D.length + pad.length := by omega
      have positive : 0 < (last.fragment D).offset := by
        simpa [Node.later, fragment, whole] using later
      simp [Node.later, fragment, word, more, positive]
    have stopped := stopped long chain pad (by simp [Node.ends, still])
    rw [evidence6_later stopped still, evidence6_later chain later, word,
      byte_append_left (by omega)]
  · have stopped := stopped long chain pad (by simp [Node.ends, upper])
    rw [evidence6_upper stopped upper, evidence6_upper chain upper, Chain.passed_seen chain]
    by_cases asked : minHeader last.proto = 0
    · rw [l4Evidence_without asked, l4Evidence_without asked]
    · have within : last.off + minHeader last.proto ≤ D.length := holds.resolve_left asked
      have begun : last.off < D.length := by omega
      have still : last.off < (D ++ pad).length := by
        rw [List.length_append]
        omega
      rw [if_pos begun, if_pos still, l4Evidence_append holds]

/-! Bytes that complete what the datagram lacks. -/

private theorem l4Evidence_protocol (off : Option Nat) :
    (l4Evidence raw off proto fragment).protocol = protocolName proto := by
  cases off with
  | none => rfl
  | some off =>
      rw [l4Evidence]
      split
      · rfl
      · split
        · rfl
        · unfold filled
          split
          · rfl
          · split <;> rfl

private theorem protocolName_extends (extends_ : n.extends = true) :
    protocolName n.proto = "IP-" ++ Nat.repr n.proto.toNat := by
  unfold Node.extends extension at extends_
  unfold protocolName
  split at extends_
  · next hop => rw [hop]; rfl
  · split at extends_
    · next routing => rw [routing]; rfl
    · split at extends_
      · next fragment => rw [fragment]; rfl
      · split at extends_
        · next destination => rw [destination]; rfl
        · exact absurd extends_ (by simp)

private theorem protocolName_own (extends_ : n.extends = true)
    (same : protocolName n.proto = protocolName proto) : proto = n.proto := by
  rw [protocolName_extends extends_] at same
  have lists := congrArg String.toList same
  rw [String.toList_append] at lists
  unfold protocolName at lists
  split at lists
  · exact absurd lists (by simp)
  · split at lists
    · exact absurd lists (by simp)
    · split at lists
      · exact absurd lists (by simp)
      · split at lists
        · exact absurd lists (by simp)
        · rw [String.toList_append] at lists
          exact UInt8.toNat_inj.mp (toList_repr_inj (List.append_cancel_left lists)).symm

/-- An extension header of 8 bytes, which no protocol follows. -/
def probe : Bytes := [59, 0, 0, 0, 0, 0, 0, 0]

private theorem probe_passed {X : Bytes} (place : n.off = X.length) (extends_ : n.extends = true) :
    Chain (X ++ probe) n [n] ⟨59, n.off + 8⟩ := by
  have at0 : byte (X ++ probe) n.off = 59 := by
    rw [place]
    exact byte_append_right (i := 0)
  have at1 : byte (X ++ probe) (n.off + 1) = 0 := by
    rw [place]
    exact byte_append_right
  have at2 : be16 (X ++ probe) (n.off + 2) = 0 := by
    rw [place]
    exact be16_append_right
  have whole : n.off + n.needed ≤ X.length + probe.length := by
    rw [place, Node.needed]
    split <;> simp [probe]
  have goes : n.ends (X ++ probe) = false := by
    simp [Node.ends, Node.cut, Node.later, Node.fragment, extends_, at2, whole]
  have next : n.next (X ++ probe) = ⟨59, n.off + 8⟩ := by
    simp [Node.next, Node.length, at0, at1]
  refine .pass goes ?_
  rw [next]
  exact .stop rfl

private theorem upper_changes (long : 40 ≤ D.length) (chain : Chain D ⟨byte D 6, 40⟩ passed last)
    (cut : last.cut D = true) {more : List Node} {last' : Node}
    (rest : Chain (D ++ pad) last more last') (upper : last'.extends = false) :
    evidence6 (D ++ pad) ≠ evidence6 D := by
  intro same
  obtain ⟨extends_, -⟩ := (Bool.and_eq_true _ _).mp cut
  rw [evidence6_upper (grown long chain rest) upper, evidence6_cut chain cut] at same
  have names := congrArg Evidence.protocol same
  rw [l4Evidence_protocol] at names
  have own : last'.proto = last.proto := protocolName_own extends_ names.symm
  rw [Node.extends, own] at upper
  exact absurd extends_ (by simp [Node.extends, upper])

private theorem later_changes (long : 40 ≤ D.length) (chain : Chain D ⟨byte D 6, 40⟩ passed last)
    (cut : last.cut D = true) (later : last.later (D ++ pad) = true) :
    evidence6 (D ++ pad) ≠ evidence6 D := by
  intro same
  have stopped := stopped long chain pad (by simp [Node.ends, later])
  rw [evidence6_later stopped later, evidence6_cut chain cut] at same
  have offsets : (last.fragment (D ++ pad)).offset = (passed.foldl (seen D) .none).offset :=
    congrArg (fun e => e.fragment.offset) same
  have first := (Chain.passed_first chain .none ⟨rfl, rfl⟩).1
  simp only [Node.later, Bool.and_eq_true, decide_eq_true_eq] at later
  omega

private theorem cut_next {zeros : Nat} (begun : last.off < D.length) (cut : last.cut D = true)
    (filled : D.length + zeros = last.off + 8)
    (now : last.later (D ++ (List.replicate zeros 0 ++ probe)) = false) :
    last.ends (D ++ (List.replicate zeros 0 ++ probe)) = false ∧
      last.next (D ++ (List.replicate zeros 0 ++ probe)) = ⟨byte D last.off, last.off + 8⟩ := by
  obtain ⟨extends_, short⟩ := (Bool.and_eq_true _ _).mp cut
  have missing : D.length < last.off + last.needed := of_decide_eq_true short
  have needed : last.needed ≤ 8 := by
    unfold Node.needed
    split <;> omega
  have whole : last.off + last.needed ≤ D.length + (zeros + probe.length) := by omega
  have eight : last.length (D ++ (List.replicate zeros 0 ++ probe)) = 8 := by
    unfold Node.length
    split
    · rfl
    · next sized =>
        -- The datagram has the first byte of the header only: the length is a zero behind it.
        have two : last.needed = 2 := by simp [Node.needed, sized]
        have edge : last.off + 1 = D.length + 0 := by omega
        have some_zero : zeros = zeros - 1 + 1 := by omega
        rw [edge, byte_append_right, some_zero, List.replicate_succ]
        rfl
  constructor
  · simp [Node.ends, Node.cut, extends_, whole, now]
  · rw [Node.next, eight, byte_append_left begun]

private theorem cut_changes (long : 40 ≤ D.length) (chain : Chain D ⟨byte D 6, 40⟩ passed last)
    (cut : last.cut D = true) : ∃ pad, evidence6 (D ++ pad) ≠ evidence6 D := by
  obtain ⟨extends_, short⟩ := (Bool.and_eq_true _ _).mp cut
  have missing : D.length < last.off + last.needed := of_decide_eq_true short
  have ends (zeros : Nat) (more : List Node) (last' : Node) (upper : last'.extends = false)
      (rest : Chain (D ++ List.replicate zeros 0 ++ probe) last more last') :
      evidence6 (D ++ (List.replicate zeros 0 ++ probe)) ≠ evidence6 D := by
    rw [List.append_assoc] at rest
    exact upper_changes long chain cut rest upper
  by_cases begun : last.off < D.length
  · obtain ⟨zeros, filled⟩ : ∃ zeros, D.length + zeros = last.off + 8 := by
      refine ⟨last.off + 8 - D.length, ?_⟩
      unfold Node.needed at missing
      split at missing <;> omega
    refine ⟨List.replicate zeros 0 ++ probe, ?_⟩
    by_cases later : last.later (D ++ (List.replicate zeros 0 ++ probe)) = true
    · exact later_changes long chain cut later
    · obtain ⟨goes, next⟩ := cut_next begun cut filled (Bool.eq_false_iff.mpr later)
      rw [← List.append_assoc] at goes next
      by_cases further : (Node.mk (byte D last.off) (last.off + 8)).extends = true
      · have place : last.off + 8 = (D ++ List.replicate zeros 0).length := by
          rw [List.length_append, List.length_replicate, filled]
        exact ends zeros _ _ rfl (.pass goes (next ▸ probe_passed place further))
      · have upper := Bool.eq_false_iff.mpr further
        have stop : Node.ends (D ++ List.replicate zeros 0 ++ probe)
            ⟨byte D last.off, last.off + 8⟩ = true := by simp [Node.ends, upper]
        rw [← next] at upper stop
        exact ends zeros _ _ upper (.pass goes (.stop stop))
  · refine ⟨List.replicate (last.off - D.length) 0 ++ probe, ?_⟩
    have place : last.off = (D ++ List.replicate (last.off - D.length) 0).length := by
      rw [List.length_append, List.length_replicate]
      omega
    exact ends (last.off - D.length) _ _ rfl (probe_passed place extends_)

private theorem short_changes (long : 40 ≤ D.length) (chain : Chain D ⟨byte D 6, 40⟩ passed last)
    (upper : last.extends = false) (lacks : ¬ Holds D last.proto last.off) :
    ∃ pad, evidence6 (D ++ pad) ≠ evidence6 D := by
  obtain ⟨asked, short⟩ := not_or.mp lacks
  have most := minHeader_le last.proto
  have least := minHeader_ge asked
  have clear := (Chain.passed_first chain .none ⟨rfl, rfl⟩).2
  have padded (pad : Bytes) (inside : last.off < (D ++ pad).length) :
      (evidence6 (D ++ pad)).fragment.l4Incomplete =
        decide ((D ++ pad).length < last.off + minHeader last.proto) := by
    have stopped := stopped long chain pad (by simp [Node.ends, upper])
    rw [evidence6_upper stopped upper, if_pos inside, Chain.passed_seen chain,
      l4Evidence_incomplete asked clear]
  by_cases begun : last.off < D.length
  · refine ⟨List.replicate 20 0, fun same => ?_⟩
    have longer : (D ++ List.replicate 20 0).length = D.length + 20 := by
      rw [List.length_append, List.length_replicate]
    have completed := padded (List.replicate 20 0) (by omega)
    rw [same, evidence6_upper chain upper, if_pos begun, l4Evidence_incomplete asked clear,
      decide_eq_true (Nat.not_le.mp short), decide_eq_false (by omega)] at completed
    exact absurd completed (by simp)
  · refine ⟨List.replicate (last.off - D.length + 1) 0, fun same => ?_⟩
    have longer : (D ++ List.replicate (last.off - D.length + 1) 0).length = last.off + 1 := by
      rw [List.length_append, List.length_replicate]
      omega
    have started := padded (List.replicate (last.off - D.length + 1) 0) (by omega)
    rw [same, evidence6_upper chain upper, if_neg begun, decide_eq_true (by omega)] at started
    exact absurd started (by simp [l4Evidence, bare, clear])

private theorem closed6_iff (long : 40 ≤ D.length) :
    (∀ pad pad', evidence6 (D ++ pad) = evidence6 (D ++ pad')) ↔ Closed6 D := by
  constructor
  · intro same
    have alone (pad : Bytes) : evidence6 (D ++ pad) = evidence6 D := by
      have bare := same pad []
      rwa [List.append_nil] at bare
    obtain ⟨passed, last, chain⟩ := chain_exists D ⟨byte D 6, 40⟩
    refine ⟨passed, last, chain, ?_⟩
    by_cases later : last.later D = true
    · exact .inl later
    · by_cases extends_ : last.extends = true
      · have cut : last.cut D = true := by
          have ended := chain.ended
          simpa [Node.ends, extends_, later] using ended
        obtain ⟨pad, differ⟩ := cut_changes long chain cut
        exact absurd (alone pad) differ
      · have upper := Bool.eq_false_iff.mpr extends_
        refine .inr ⟨upper, ?_⟩
        by_contra lacks
        obtain ⟨pad, differ⟩ := short_changes long chain upper lacks
        exact absurd (alone pad) differ
  · intro closed pad pad'
    rw [closed6_append long closed, closed6_append long closed]

/-! Both families. -/

/-- The bytes are the whole datagram that their IP header declares. -/
def Declared (D : Bytes) : Prop :=
  version D = 4 ∧ 20 ≤ ihl D * 4 ∧ ihl D * 4 ≤ be16 D 2 ∧ D.length = be16 D 2 ∨
  version D = 6 ∧ be16 D 4 ≠ 0 ∧ D.length = 40 + be16 D 4

instance (D : Bytes) : Decidable (Declared D) := inferInstanceAs (Decidable (_ ∨ _))

def Closed (D : Bytes) : Prop := version D = 4 ∧ Closed4 D ∨ version D = 6 ∧ Closed6 D

private theorem accepted_iff {e : Bytes → Evidence}
    (accepted : ∀ pad, ∃ info, ParsePacket d (D ++ pad) = .ok info ∧ evidence info = e (D ++ pad)) :
    (∀ pad pad' info info', ParsePacket d (D ++ pad) = .ok info →
      ParsePacket d (D ++ pad') = .ok info' → evidence info = evidence info') ↔
    ∀ pad pad', e (D ++ pad) = e (D ++ pad') := by
  constructor
  · intro same pad pad'
    obtain ⟨info, parsed, read⟩ := accepted pad
    obtain ⟨info', parsed', read'⟩ := accepted pad'
    rw [← read, ← read']
    exact same pad pad' info info' parsed parsed'
  · intro same pad pad' info info' parsed parsed'
    obtain ⟨_, again, read⟩ := accepted pad
    obtain ⟨_, again', read'⟩ := accepted pad'
    obtain rfl := Except.ok.inj (again.symm.trans parsed)
    obtain rfl := Except.ok.inj (again'.symm.trans parsed')
    rw [read, read', same pad pad']

/-- A datagram gives the same evidence whatever follows it exactly when it has all that the
parser looks at: the L4 header that its protocol asks for, or it is a later fragment. -/
theorem padding_is_no_evidence_iff (d : Decoder) (rfc791 : d.RFC791) (rfc8200 : d.RFC8200)
    (D : Bytes) (declared : Declared D) :
    (∀ pad pad' info info', ParsePacket d (D ++ pad) = .ok info →
      ParsePacket d (D ++ pad') = .ok info' → evidence info = evidence info') ↔ Closed D := by
  have longer (pad : Bytes) : D.length ≤ (D ++ pad).length := by
    rw [List.length_append]
    omega
  rcases declared with ⟨four, words, header, exact_⟩ | ⟨six, -, exact_⟩
  · have long : 20 ≤ D.length := by omega
    have zeroth (pad : Bytes) : byte (D ++ pad) 0 = byte D 0 := byte_append_left (by omega)
    have accepted (pad : Bytes) := parse_evidence4 rfc791 (long.trans (longer pad))
      (by rw [version, zeroth]; exact four) (by rw [ihl, zeroth]; exact words)
    rw [accepted_iff accepted, closed4_iff long (by omega), Closed]
    simp [four]
  · have long : 40 ≤ D.length := by omega
    have zeroth (pad : Bytes) : byte (D ++ pad) 0 = byte D 0 := byte_append_left (by omega)
    have accepted (pad : Bytes) := parse_evidence6 rfc8200 (long.trans (longer pad))
      (by rw [version, zeroth]; exact six)
    rw [accepted_iff accepted, closed6_iff long, Closed]
    simp [six]

/-- An IPv4 datagram of 32 bytes with TCP as its protocol and 12 bytes of a TCP header. -/
def shortTcp : Bytes :=
  [0x45, 0, 0, 32, 0, 0, 0, 0, 64, 6, 0, 0, 10, 0, 0, 1, 10, 0, 0, 2,
    0x30, 0x39, 0, 80, 0, 0, 0, 1, 0, 0, 0, 0]

/-- An IPv4 datagram of 28 bytes with a UDP header and no payload. -/
def emptyUdp : Bytes :=
  [0x45, 0, 0, 28, 0, 0, 0, 0, 64, 17, 0, 0, 10, 0, 0, 1, 10, 0, 0, 2,
    0x30, 0x39, 0, 53, 0, 8, 0, 0]

theorem emptyUdp_closed :
    Declared emptyUdp ∧ ∀ pad pad' info info',
      ParsePacket fixedFields (emptyUdp ++ pad) = .ok info →
      ParsePacket fixedFields (emptyUdp ++ pad') = .ok info' → evidence info = evidence info' :=
  ⟨by decide, (padding_is_no_evidence_iff fixedFields fixedFields_RFC791 fixedFields_RFC8200
    emptyUdp (by decide)).mpr (.inl ⟨by decide, .inr (.inr (by decide))⟩)⟩

/-- Eight bytes of padding complete the TCP header: the ports and the flags appear and the
complaint is gone. -/
theorem padding_completes_header :
    Declared shortTcp ∧ ∃ info info', ParsePacket fixedFields shortTcp = .ok info ∧
      ParsePacket fixedFields (shortTcp ++ [0x50, 2, 0, 0, 0, 0, 0, 0]) = .ok info' ∧
      info.fragment.l4Incomplete = true ∧ info.dstPort = 0 ∧ info.tcpFlags.syn = false ∧
      info'.fragment.l4Incomplete = false ∧ info'.dstPort = 80 ∧ info'.tcpFlags.syn = true := by
  obtain ⟨info, parsed, read⟩ :=
    @parse_evidence4 fixedFields shortTcp fixedFields_RFC791 (by decide) (by decide) (by decide)
  obtain ⟨info', parsed', read'⟩ := @parse_evidence4 fixedFields
    (shortTcp ++ [0x50, 2, 0, 0, 0, 0, 0, 0]) fixedFields_RFC791 (by decide) (by decide) (by decide)
  have short : evidence info = bare ipProtocolTCP ⟨false, false, 0, true⟩ :=
    read.trans (by decide)
  have whole : evidence info' =
      ⟨"TCP", 12345, 80, ⟨true, false, false, false⟩, none, none, ⟨false, false, 0, false⟩⟩ :=
    read'.trans (by decide)
  simp only [evidence, bare, Evidence.mk.injEq] at short whole
  refine ⟨by decide, info, info', parsed, parsed', ?_⟩
  simp [short, whole, TCPFlags.none]

end L3Firewall.Packet.Padding
