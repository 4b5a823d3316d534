/- Packet/HeaderChain
   source: internal/packet/parser.go
   digest: The walk over a well-formed chain of IPv6 extension headers, step by step. -/

import L3Firewall.Packet.Parser
import Mathlib.Data.List.GetD

set_option autoImplicit false
set_option relaxedAutoImplicit false

namespace L3Firewall.Packet.HeaderChain

open Packet.Parser

section Bytes

variable {a b : Bytes} {i : Nat}

theorem byte_append_left (inside : i < a.length) : byte (a ++ b) i = byte a i :=
  List.getD_append a b 0 i inside

theorem byte_append_right : byte (a ++ b) (a.length + i) = byte b i := by
  rw [byte, List.getD_append_right a b 0 _ (Nat.le_add_right _ _), Nat.add_sub_cancel_left]
  rfl

theorem be16_append_left (inside : i + 1 < a.length) : be16 (a ++ b) i = be16 a i := by
  rw [be16, byte_append_left (by omega), byte_append_left inside, be16]

theorem be16_append_right : be16 (a ++ b) (a.length + i) = be16 b i := by
  rw [be16, Nat.add_assoc, byte_append_right, byte_append_right, be16]

end Bytes

def walkFrom (raw : Bytes) (proto : UInt8) (off : Nat) (ext : List String) (frag : FragmentInfo) :
    IPv6HeaderChain :=
  walk raw (raw.length + 1) proto off ext frag

section Steps

variable {raw : Bytes} {proto : UInt8} {off : Nat} {ext : List String} {frag : FragmentInfo}

private theorem walk_again {step : Nat} (moved : 1 ≤ step) (inside : off < raw.length) :
    walk raw raw.length proto (off + step) ext frag = walkFrom raw proto (off + step) ext frag := by
  obtain ⟨n, size⟩ : ∃ n, raw.length = n + 1 := ⟨raw.length - 1, by omega⟩
  have same := walk_budget raw n 1 proto (off + step) ext frag (by omega)
  rw [walkFrom, size]
  exact same.symm

theorem walkFrom_l4 (l4 : extHeaderTypes proto = none) : walkFrom raw proto off ext frag =
    ⟨proto, if off < raw.length then some off else none, ext, frag⟩ := by
  rw [walkFrom, walk, l4]

theorem walkFrom_truncated {name : String} (known : extHeaderTypes proto = some name)
    (past : raw.length ≤ off) : walkFrom raw proto off ext frag = ⟨proto, none, ext, frag⟩ := by
  rw [walkFrom, walk, known]
  exact if_pos past

theorem walkFrom_header {name : String} (known : extHeaderTypes proto = some name)
    (other : proto ≠ ipProtocolIPv6Fragment) (present : off + 2 ≤ raw.length)
    (ext : List String) (frag : FragmentInfo) :
    walkFrom raw proto off ext frag =
      walkFrom raw (byte raw off) (off + ((byte raw (off + 1)).toNat + 1) * 8) (ext ++ [name])
        frag := by
  have inside : off < raw.length := by omega
  rw [walkFrom, walk, known]
  simp only [if_neg (Nat.not_le.mpr inside), if_neg other, if_neg (Nat.not_lt.mpr present)]
  exact walk_again (by omega) inside

theorem walkFrom_firstFragment (present : off + 8 ≤ raw.length)
    (first : be16 raw (off + 2) / 8 = 0) (ext : List String) (frag : FragmentInfo) :
    ∃ frag', frag'.l4Incomplete = false ∧
      walkFrom raw ipProtocolIPv6Fragment off ext frag =
        walkFrom raw (byte raw off) (off + 8) (ext ++ ["Fragment"]) frag' := by
  have inside : off < raw.length := by omega
  refine ⟨⟨true, decide (be16 raw (off + 2) % 2 = 1), be16 raw (off + 2) / 8, false⟩, rfl, ?_⟩
  have known : extHeaderTypes ipProtocolIPv6Fragment = some "Fragment" := rfl
  have whole : ¬ raw.length < off + ipv6FragmentHeaderLen := Nat.not_lt.mpr present
  rw [walkFrom, walk, known]
  simp only [if_neg (Nat.not_le.mpr inside), if_true, if_neg whole, first, lt_irrefl, if_false]
  exact walk_again (by decide) inside

theorem walkFrom_laterFragment (present : off + 8 ≤ raw.length)
    (later : 0 < be16 raw (off + 2) / 8) (ext : List String) (frag : FragmentInfo) :
    ∃ ext' frag', frag'.l4Incomplete = false ∧
      walkFrom raw ipProtocolIPv6Fragment off ext frag = ⟨byte raw off, none, ext', frag'⟩ := by
  have inside : off < raw.length := by omega
  refine ⟨ext ++ ["Fragment"],
    ⟨true, decide (be16 raw (off + 2) % 2 = 1), be16 raw (off + 2) / 8, false⟩, rfl, ?_⟩
  have known : extHeaderTypes ipProtocolIPv6Fragment = some "Fragment" := rfl
  have whole : ¬ raw.length < off + ipv6FragmentHeaderLen := Nat.not_lt.mpr present
  rw [walkFrom, walk, known]
  simp only [if_neg (Nat.not_le.mpr inside), if_true, if_neg whole, if_pos later]

end Steps

/-- Headers of the given kinds, each with its declared length and the number of the next;
the first number announces the first header, the last one what follows. -/
inductive Chain (kinds : List UInt8) : UInt8 → List Bytes → UInt8 → Prop
  | nil (proto : UInt8) : Chain kinds proto [] proto
  | cons {proto last : UInt8} {h : Bytes} {rest : List Bytes} (kind : proto ∈ kinds)
      (size : h.length = ((byte h 1).toNat + 1) * 8) (tail : Chain kinds (byte h 0) rest last) :
      Chain kinds proto (h :: rest) last

def sized : List UInt8 :=
  [ipProtocolIPv6HopByHop, ipProtocolIPv6Routing, ipProtocolIPv6Destination]

theorem destination_known : extHeaderTypes ipProtocolIPv6Destination = some "Destination" := rfl

theorem sized_known {proto : UInt8} (kind : proto ∈ sized) :
    (∃ name, extHeaderTypes proto = some name) ∧ proto ≠ ipProtocolIPv6Fragment := by
  rcases List.mem_cons.mp kind with rfl | kind
  · exact ⟨⟨_, rfl⟩, by decide⟩
  · rcases List.mem_cons.mp kind with rfl | kind
    · exact ⟨⟨_, rfl⟩, by decide⟩
    · obtain rfl := List.mem_singleton.mp kind
      exact ⟨⟨_, rfl⟩, by decide⟩

theorem walkFrom_chain {kinds : List UInt8} (within : kinds ⊆ sized) {first last : UInt8}
    {headers : List Bytes} (chain : Chain kinds first headers last) (before after : Bytes)
    (ext : List String) (frag : FragmentInfo) :
    ∃ ext', walkFrom (before ++ headers.flatten ++ after) first before.length ext frag =
      walkFrom (before ++ headers.flatten ++ after) last
        (before.length + headers.flatten.length) ext' frag := by
  induction chain generalizing before ext with
  | nil proto => exact ⟨ext, rfl⟩
  | @cons proto last h rest kind size tail ih =>
      obtain ⟨⟨name, known⟩, other⟩ := sized_known (within kind)
      have split : before ++ (h :: rest).flatten ++ after =
          (before ++ h) ++ rest.flatten ++ after := by
        simp only [List.flatten_cons, List.append_assoc]
      have raw : before ++ (h :: rest).flatten ++ after =
          before ++ (h ++ (rest.flatten ++ after)) := by
        simp only [List.flatten_cons, List.append_assoc]
      have present : before.length + 2 ≤ (before ++ (h :: rest).flatten ++ after).length := by
        rw [raw, List.length_append, List.length_append]
        omega
      have next : byte (before ++ (h :: rest).flatten ++ after) before.length = byte h 0 := by
        rw [raw, ← Nat.add_zero before.length, byte_append_right]
        exact byte_append_left (by omega)
      have len : byte (before ++ (h :: rest).flatten ++ after) (before.length + 1) = byte h 1 := by
        rw [raw, byte_append_right]
        exact byte_append_left (by omega)
      have moved := walkFrom_header known other present ext frag
      rw [next, len, ← size, ← List.length_append] at moved
      obtain ⟨ext', walked⟩ := ih (before ++ h) (ext ++ [name])
      refine ⟨ext', ?_⟩
      rw [moved, split, walked, List.length_append, List.flatten_cons, List.length_append,
        Nat.add_assoc]

end L3Firewall.Packet.HeaderChain
