/- Pipeline/Evasion
   source: internal/engine/engine.go, internal/packet/parser.go, opa-policies/l3.rego
   digest: Blocked ports behind fragmentation, from the bytes of a fragment to the decision. -/

import L3Firewall.Opa.Denials
import L3Firewall.Packet.Fragments
import L3Firewall.Pipeline.FailClosed
import L3Firewall.Pipeline.Frame
import L3Firewall.Pipeline.Quiet
import Mathlib.Tactic.IntervalCases

set_option autoImplicit false
set_option relaxedAutoImplicit false

namespace L3Firewall.Pipeline.Evasion

open Foundation.Recover
open Foundation.Recover.Action
open Foundation.Rego (Builtins)
open Conntrack.FlowTable (Table Flow)
open Ratelimit.Buckets (Limiter)
open Packet.Parser
open Packet.Fragments
open Opa.Policy (PortSpec shipped)
open Opa.Decision (Denied)
open Opa.Denials
open Opa.Evaluator (Evaluate decisionQuery evaluate_decisionQuery)
open Handlers
open FailClosed
open Quiet (quietEnv quietEnv_evaluate freshEngine freshEngine_calm quietly quietly_payloads Calm)

/-- The evaluator has the shipped policy loaded: it answers by that policy, or it fails or
panics. -/
def Governed (b : Builtins) (env : Env) : Prop :=
  ∀ i, env.evaluate i = Evaluate (some (decisionQuery b shipped)) i ∨
    (∃ err, env.evaluate i = .failed err) ∨ ∃ value, env.evaluate i = .panicked value

structure Enforcing (e : Engine) : Prop where
  eval : e.eval = true
  auditOnly : e.auditOnly = false

section Denial

variable {b : Builtins} {env : Env} {e : Engine} {d : Decoder} {raw : Bytes} {pi : PacketInfo}

private theorem admittedInput_packet (env : Env) (pi : PacketInfo) (size : Nat) (e : Engine)
    (t : Table)
    (flow : Flow) (l : Limiter) : (admittedInput env pi size e t flow l).packet =
      { srcIP := pi.srcIP, dstIP := pi.dstIP, protocol := pi.protocol, srcPort := pi.srcPort,
        dstPort := pi.dstPort, tcpFlags := pi.tcpFlags, icmpType := pi.icmpType,
        icmpCode := pi.icmpCode, fragment := pi.fragment, packetSize := pi.packetSize } := by
  unfold admittedInput policyInput
  split <;> rfl

private theorem not_denied_of_decides (governed : Governed b env) (enforcing : Enforcing e)
    {i : Opa.Document.Input} (decides : Decides env e i) : ¬ Denied b shipped i := by
  rcases decides with ⟨absent, -⟩ | ⟨-, answer, answered, allowed | audit⟩
  · exact absurd (enforcing.eval.symm.trans absent) nofun
  · obtain ⟨reason, evaluated⟩ := evaluate_decisionQuery b shipped i
    rcases governed i with same | ⟨err, failed⟩ | ⟨value, panicked⟩
    · have equal := answered.symm.trans (same.trans evaluated)
      obtain rfl := Option.some.inj (Reply.returned.inj equal)
      simpa using allowed
    · exact absurd (answered.symm.trans failed) nofun
    · exact absurd (answered.symm.trans panicked) nofun
  · exact absurd (audit.symm.trans enforcing.auditOnly) nofun

private theorem blocked_of_denied (governed : Governed b env) (enforcing : Enforcing e)
    (parsed : ParsePacket d raw = .ok pi)
    (denied : ∀ t flow l, Denied b shipped (admittedInput env pi raw.length e t flow l)) :
    ∃ e', (packetHandler d env (some raw)).Returns e 1 e' := by
  obtain ⟨decision, e', handled, small, zero⟩ := packetHandler_zero d env e (some raw)
  have one : decision = 1 := by
    by_contra other
    obtain ⟨raw', pi', t, flow, l, passed⟩ := zero.mp (by omega)
    obtain rfl := Option.some.inj passed.payload
    obtain rfl := Except.ok.inj (parsed.symm.trans passed.parsed)
    exact not_denied_of_decides governed enforcing passed.decides (denied t flow l)
  exact ⟨e', one ▸ handled⟩

private theorem be16_lt (raw : Bytes) (i : Nat) : be16 raw i < 65536 := by
  have high := (byte raw i).toNat_lt
  have low := (byte raw (i + 1)).toNat_lt
  unfold be16
  omega

/-- The source or the destination port of a segment is on the shipped list. -/
def BlockedPort (segment : Bytes) : Prop :=
  PortSpec.number (srcPort segment) ∈ shipped.blockedPorts ∨
    PortSpec.number (dstPort segment) ∈ shipped.blockedPorts

private theorem blocked_of_exposed (governed : Governed b env) (enforcing : Enforcing e)
    (parsed : ParsePacket d raw = .ok pi) {segment : Bytes} (exposed : Exposed segment pi)
    (listed : BlockedPort segment) :
    ∃ e', (packetHandler d env (some raw)).Returns e 1 e' := by
  refine blocked_of_denied governed enforcing parsed fun t flow l => ?_
  have packet := admittedInput_packet env pi raw.length e t flow l
  rcases exposed with marked | ⟨transport, source, destination⟩
  · refine denied_of_incomplete ?_
    rw [packet]
    exact marked
  · have exact_port (i : Nat) : (UInt16.ofNat (be16 segment i)).toNat = be16 segment i :=
      UInt16.toNat_ofNat_of_lt' (be16_lt segment i)
    refine denied_of_port ?_ ?_
    · rw [packet]
      exact transport
    · rw [packet]
      dsimp only
      rw [source, destination, srcPort, dstPort, exact_port, exact_port]
      exact listed

end Denial

section Samples

/-- Built-ins under which every network holds every address. -/
def everywhere : Builtins := ⟨fun _ _ => some true, fun _ => none, fun _ => "", fun _ => ""⟩

private theorem everywhere_networks :
    AllNetworks everywhere := fun _ => ⟨fun _ => rfl, fun _ _ => rfl⟩

private theorem quietEnv_governed (b : Builtins) (now : Nat) : Governed b (quietEnv b now) :=
  fun i => .inl (congrFun (quietEnv_evaluate b now) i)

private theorem freshEngine_enforcing : Enforcing freshEngine := ⟨rfl, rfl⟩

def synToSsh : Bytes :=
  [0xAB, 0xE1, 0x00, 0x16, 0, 0, 0, 1, 0, 0, 0, 0, 0x50, 0x02, 0xFF, 0xFF, 0, 0, 0, 0]

private theorem synToSsh_blocked : BlockedPort synToSsh := by
  have ssh : dstPort synToSsh = 22 := rfl
  refine .inr ?_
  rw [ssh]
  exact List.mem_cons_self

end Samples

section IPv4

variable {d : Decoder} {proto : UInt8} {segment : Bytes} {first : Fragment4}
  {rest : List Fragment4}

/-- No evasion by IPv4 fragments. However a segment with a blocked port is sent, whole or
cut, the packet with offset zero is dropped in every state of an engine that enforces the
shipped policy, and no continuation is marked as incomplete. -/
theorem fragments4_blocked (layout : d.RFC791) (complete : Segment proto segment)
    (listed : BlockedPort segment)
    (cut : Cut Fragment4.piece (Labelled4 proto) 0 (first :: rest))
    (whole : ((first :: rest).map Fragment4.piece).flatten = segment) :
    (∀ (b : Builtins) (env : Env) (e : Engine), Governed b env → Enforcing e →
      ∃ e', (packetHandler d env (some first.bytes)).Returns e 1 e') ∧
    ∀ f ∈ rest, ∃ pi, ParsePacket d f.bytes = .ok pi ∧ pi.fragment.l4Incomplete = false := by
  constructor
  · intro b env e governed enforcing
    obtain ⟨more, label⟩ := cut.head
    rw [List.map_cons, List.flatten_cons] at whole
    obtain ⟨pi, parsed, exposed⟩ := parse_first4 layout label _ (whole ▸ complete)
    rw [whole] at exposed
    exact blocked_of_exposed governed enforcing parsed exposed listed
  · intro f member
    obtain ⟨more, offset, later, label⟩ := cut.later member
    exact parse_later4 layout label later

/-- The first 8 bytes of the SYN, without its flags. -/
def tinyFirst : Fragment4 where
  header := [0x45, 0, 0, 28, 0, 1, 0x20, 0, 64, 6, 0, 0, 10, 0, 1, 100, 10, 0, 2, 50]
  piece := synToSsh.take 8

def tinyLast : Fragment4 where
  header := [0x45, 0, 0, 32, 0, 1, 0, 1, 64, 6, 0, 0, 10, 0, 1, 100, 10, 0, 2, 50]
  piece := synToSsh.drop 8

theorem tinyFragments_blocked :
    (∃ e', (packetHandler fixedFields (quietEnv everywhere 0) (some tinyFirst.bytes)).Returns
      freshEngine 1 e') ∧
    ∃ pi, ParsePacket fixedFields tinyLast.bytes = .ok pi ∧ pi.fragment.l4Incomplete = false := by
  have first : Labelled4 ipProtocolTCP 0 true tinyFirst := ⟨rfl, by decide, rfl, rfl, rfl, rfl⟩
  have last : Labelled4 ipProtocolTCP 1 false tinyLast := ⟨rfl, by decide, rfl, rfl, rfl, rfl⟩
  obtain ⟨blocked, unmarked⟩ := fragments4_blocked fixedFields_RFC791
    (.inl ⟨rfl, by decide⟩ : Segment ipProtocolTCP synToSsh) synToSsh_blocked
    (.more first (by decide) (by decide) (.last last)) rfl
  exact ⟨blocked everywhere _ _ (quietEnv_governed everywhere 0) freshEngine_enforcing,
    unmarked tinyLast List.mem_cons_self⟩

end IPv4

section Runs

private theorem Enforcing.stable : Frame.Stable Enforcing :=
  ⟨fun _ h => ⟨h.1, h.2⟩, fun _ h => ⟨h.1, h.2⟩, fun _ h => ⟨h.1, h.2⟩,
    fun _ _ _ _ _ h => ⟨h.1, h.2⟩, fun _ _ h => ⟨h.1, h.2⟩, fun _ _ h => ⟨h.1, h.2⟩,
    fun _ _ h => ⟨h.1, h.2⟩⟩

private theorem blocked_in_run {d : Decoder} {packets : List (Env × Bytes)} {env : Env}
    {raw : Bytes}
    (member : (env, raw) ∈ packets)
    (blocked : ∀ e, Enforcing e → ∃ e', (packetHandler d env (some raw)).Returns e 1 e')
    {e : Engine} (enforcing : Enforcing e) : .ok 1 ∈ decisions d packets e := by
  induction packets generalizing e with
  | nil => exact absurd member List.not_mem_nil
  | cons packet rest ih =>
      rcases List.mem_cons.mp member with rfl | later
      · obtain ⟨e', handled⟩ := blocked e enforcing
        rw [decisions_cons, show packetHandler d env (some raw) e = (.ok 1, e') from handled]
        exact List.mem_cons_self
      · have kept :=
          Frame.packetHandler_keeps Enforcing.stable d packet.1 (some packet.2) e enforcing
        exact List.mem_cons_of_mem _ (ih later kept)

private theorem quietly_governed (b : Builtins) (now : Nat) (raws : List Bytes) :
    ∀ packet ∈ quietly b now raws, Governed b packet.1 := by
  induction raws generalizing now with
  | nil => exact fun packet member => absurd member List.not_mem_nil
  | cons raw rest ih =>
      intro packet member
      rcases List.mem_cons.mp member with rfl | later
      · exact quietEnv_governed b now
      · exact ih _ packet later

end Runs

section IPv6

variable {d : Decoder} {g : Datagram6} {first : Fragment6} {rest : List Fragment6}

private theorem fragments6_few (cut : Cut Fragment6.piece (Labelled6 g) 0 (first :: rest)) :
    (first :: rest).length ≤ 8192 := by
  obtain ⟨f, last⟩ : ∃ f, (first :: rest)[rest.length]? = some f :=
    ⟨_, List.getElem?_eq_getElem (Nat.lt_succ_self rest.length)⟩
  obtain ⟨more, offset, behind, label⟩ := cut.offset last
  have field := be16_lt f.fragment 2
  have own := label.offset
  rw [List.length_cons]
  omega

private theorem fragments6_hidden (layout : d.RFC8200)
    (cut : Cut Fragment6.piece (Labelled6 g) 0 (first :: rest))
    (whole : ((first :: rest).map Fragment6.piece).flatten = g.fragmentable)
    (short : first.piece.length ≤ g.options.flatten.length) :
    ∀ raw ∈ (first :: rest).map g.bytes, ∃ pi, ParsePacket d raw = .ok pi ∧ Hidden pi := by
  rw [List.map_cons, List.flatten_cons] at whole
  have aligned : 8 ∣ first.piece.length := by
    cases cut with
    | more label filled aligned tail => exact aligned
    | last label =>
        -- A single fragment would reach to the end of the segment.
        have size := congrArg List.length whole
        have segment : 8 ≤ g.segment.length := by
          rcases g.header with ⟨-, long⟩ | ⟨-, long⟩
          · exact le_trans (by decide) long
          · exact long
        rw [Datagram6.fragmentable, List.length_append, List.length_append] at size
        simp only [List.map_nil, List.flatten_nil, List.length_nil] at size
        omega
  intro raw member
  obtain ⟨f, inside, rfl⟩ := List.mem_map.mp member
  rcases List.mem_cons.mp inside with rfl | later
  · obtain ⟨more, label⟩ := cut.head
    exact parse_first6_hidden layout label _ whole aligned short
  · obtain ⟨more, offset, behind, label⟩ := cut.later later
    exact parse_later6 layout label behind

private theorem fragments6_pass (layout : d.RFC8200) {b : Builtins} (networks : AllNetworks b)
    (cut : Cut Fragment6.piece (Labelled6 g) 0 (first :: rest))
    (whole : ((first :: rest).map Fragment6.piece).flatten = g.fragmentable)
    (short : first.piece.length ≤ g.options.flatten.length) :
    ∀ decision ∈ decisions d (quietly b 0 ((first :: rest).map g.bytes)) freshEngine,
      decision = .ok 0 := by
  have few := fragments6_few cut
  have hidden := fragments6_hidden layout cut whole short
  refine Calm.run networks _ hidden (freshEngine_calm 0) ?_
  rw [List.length_map]
  omega

/-- Evasion by IPv6 fragments. Of the fragments of a datagram with a blocked port one is
dropped in every state, in every order and whatever happens on the way, exactly if the
first piece reaches beyond the Destination Options headers. -/
theorem fragments6_blocked_iff (layout : d.RFC8200) {b : Builtins} (networks : AllNetworks b)
    (g : Datagram6) (listed : BlockedPort g.segment)
    (cut : Cut Fragment6.piece (Labelled6 g) 0 (first :: rest))
    (whole : ((first :: rest).map Fragment6.piece).flatten = g.fragmentable) :
    (∀ (packets : List (Env × Bytes)) (e : Engine), Enforcing e →
      (∀ packet ∈ packets, Governed b packet.1) →
      (packets.map Prod.snd).Perm ((first :: rest).map g.bytes) →
      .ok 1 ∈ decisions d packets e) ↔
    g.options.flatten.length < first.piece.length := by
  constructor
  · intro blocked
    by_contra short
    have passed := fragments6_pass layout networks cut whole (Nat.not_lt.mp short)
    have dropped := blocked (quietly b 0 ((first :: rest).map g.bytes)) freshEngine ⟨rfl, rfl⟩
      (quietly_governed b 0 _) (by rw [quietly_payloads])
    exact absurd (passed _ dropped) nofun
  · intro long packets e enforcing governed order
    have sent : g.bytes first ∈ packets.map Prod.snd := order.mem_iff.mpr List.mem_cons_self
    obtain ⟨⟨env, raw⟩, member, rfl⟩ := List.mem_map.mp sent
    obtain ⟨more, label⟩ := cut.head
    rw [List.map_cons, List.flatten_cons] at whole
    obtain ⟨pi, parsed, exposed⟩ := parse_first6_exposed layout label _ whole long
    exact blocked_in_run member (fun e enforcing =>
      blocked_of_exposed (governed _ member) enforcing parsed exposed listed) enforcing

/-- The fixed header of a fragment from 2001:db8::1 to 2001:db8::2. -/
def fixed6 (payloadLength : UInt8) : Bytes :=
  [0x60, 0, 0, 0, 0, payloadLength, 44, 64,
    0x20, 0x01, 0x0D, 0xB8, 0, 0, 0, 0, 0, 0, 0, 0, 0, 0, 0, 1,
    0x20, 0x01, 0x0D, 0xB8, 0, 0, 0, 0, 0, 0, 0, 0, 0, 0, 0, 2]

/-- The SYN behind one Destination Options header of 8 bytes. -/
def optionThenSyn : Datagram6 where
  fixed := fixed6 0
  fixedSize := rfl
  version := rfl
  unfragmentable := []
  chain := .nil _
  next := ipProtocolIPv6Destination
  options := [[6, 0, 1, 4, 0, 0, 0, 0]]
  proto := ipProtocolTCP
  optionsChain := .cons List.mem_cons_self rfl (.nil _)
  segment := synToSsh
  header := .inl ⟨rfl, by decide⟩

def head6 (length : Nat) : Fragment6 where
  fixed := fixed6 (UInt8.ofNat (8 + length))
  fragment := [60, 0, 0, 1, 0, 0, 0, 1]
  piece := optionThenSyn.fragmentable.take length

def tail6 (length : Nat) : Fragment6 where
  fixed := fixed6 (UInt8.ofNat (36 - length))
  fragment := [60, 0, 0, UInt8.ofNat length, 0, 0, 0, 1]
  piece := optionThenSyn.fragmentable.drop length

private theorem fixed6_repeated (payloadLength : UInt8) (i : Nat) (four : i ≠ 4) (five : i ≠ 5) :
    byte (fixed6 payloadLength) i = byte (fixed6 0) i := by
  rcases Nat.lt_or_ge i 5 with low | high
  · interval_cases i <;> rfl
  · obtain ⟨n, rfl⟩ : ∃ n, i = n + 6 := ⟨i - 6, by omega⟩
    rfl

private theorem optionThenSyn_cut_eight :
    Cut Fragment6.piece (Labelled6 optionThenSyn) 0 [head6 8, tail6 8] :=
  .more ⟨rfl, fixed6_repeated _, rfl, rfl, rfl, rfl⟩ (by decide) (by decide)
    (.last ⟨rfl, fixed6_repeated _, rfl, rfl, rfl, rfl⟩)

private theorem optionThenSyn_cut_sixteen :
    Cut Fragment6.piece (Labelled6 optionThenSyn) 0 [head6 16, tail6 16] :=
  .more ⟨rfl, fixed6_repeated _, rfl, rfl, rfl, rfl⟩ (by decide) (by decide)
    (.last ⟨rfl, fixed6_repeated _, rfl, rfl, rfl, rfl⟩)

theorem optionThenSyn_sixteen_blocked :
    .ok 1 ∈ decisions fixedFields
      (quietly everywhere 0 ([head6 16, tail6 16].map optionThenSyn.bytes)) freshEngine :=
  (fragments6_blocked_iff fixedFields_RFC8200 everywhere_networks optionThenSyn synToSsh_blocked
    optionThenSyn_cut_sixteen rfl).mpr (by decide) _ _ freshEngine_enforcing
    (quietly_governed everywhere 0 _) (by rw [quietly_payloads])

/-- Cut right behind the options, both fragments of the SYN pass a fresh engine. -/
theorem optionThenSyn_eight_passes :
    BlockedPort optionThenSyn.segment ∧ Enforcing freshEngine ∧
    (∀ packet ∈ quietly everywhere 0 ([head6 8, tail6 8].map optionThenSyn.bytes),
      Governed everywhere packet.1) ∧
    Cut Fragment6.piece (Labelled6 optionThenSyn) 0 [head6 8, tail6 8] ∧
    ([head6 8, tail6 8].map Fragment6.piece).flatten = optionThenSyn.fragmentable ∧
    .ok 1 ∉ decisions fixedFields
      (quietly everywhere 0 ([head6 8, tail6 8].map optionThenSyn.bytes)) freshEngine := by
  refine ⟨synToSsh_blocked, freshEngine_enforcing, quietly_governed everywhere 0 _,
    optionThenSyn_cut_eight, rfl, fun dropped => ?_⟩
  have passed := fragments6_pass fixedFields_RFC8200 everywhere_networks optionThenSyn_cut_eight
    rfl (by decide) _ dropped
  exact absurd passed nofun

end IPv6

end L3Firewall.Pipeline.Evasion
