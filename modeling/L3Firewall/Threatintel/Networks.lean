/- Threatintel/Networks
   source: package net of the Go standard library, as internal/threatintel uses it
   digest: Networks in CIDR notation, their canonical text and the addresses they hold. -/

import L3Firewall.Net.RoundTrip
import L3Firewall.Threatintel.Lookup
import Mathlib.Data.List.Basic

set_option autoImplicit false
set_option relaxedAutoImplicit false

namespace L3Firewall.Threatintel.Networks

open Foundation.Decimal (isDigit_of_mem_repr toList_repr_inj)
open Net.Address
open Net.RoundTrip
open Lookup

/-- A mask of `ones` leading ones. -/
def CIDRMask (w ones : Nat) : BitVec w := BitVec.allOnes w <<< (w - ones)

/-- The notation of an address decides how many mask bits it takes. -/
def BitLen (addr : List Char) : Nat :=
  match addr.find? (fun c => c = '.' || c = ':' || c = '%') with
  | some '.' => 32
  | _ => 128

/-- The parts of a text in CIDR notation: address, bit length, number of mask bits. The
text is cut at its first slash; the mask is decimal and may have leading zeros. -/
def cutCIDR (s : String) : Option (IP × Nat × Nat) :=
  let addr := s.toList.takeWhile (· ≠ '/')
  let mask := (s.toList.dropWhile (· ≠ '/')).drop 1
  if '/' ∉ s.toList then none
  else match ParseIP (String.ofList addr) with
    | none => none
    | some ip =>
        if mask = [] ∨ ¬ mask.all Char.isDigit ∨ BitLen addr < decimal mask then none
        else some (ip, BitLen addr, decimal mask)

/-- The network of a text in CIDR notation, host bits cleared. It is held as Contains and
String read it: a network number that is an IPv4-mapped address counts as its last four
bytes, with the last four bytes of its mask. -/
def ParseCIDR (s : String) : Option IPNet :=
  match cutCIDR s with
  | none => none
  | some (ip, bits, ones) =>
      if bits = 32 then
        some (.v4 (ip.extractLsb' 0 32 &&& CIDRMask 32 ones) (CIDRMask 32 ones))
      else
        match IP.To4 (ip &&& CIDRMask 128 ones) with
        | some v4 => some (.v4 v4 ((CIDRMask 128 ones).extractLsb' 0 32))
        | none => some (.v6 (ip &&& CIDRMask 128 ones) (CIDRMask 128 ones))

/-- The number of ones of a mask whose ones all come first. -/
def simpleMaskLength {w : Nat} (mask : BitVec w) : Option Nat :=
  (List.range (w + 1)).find? fun ones => mask = CIDRMask w ones

/-- Hexadecimal digits of a mask, most significant first. -/
def hexString {w : Nat} (mask : BitVec w) : String :=
  String.ofList ((List.range (w / 4)).map fun i =>
    Nat.digitChar ((mask >>> (w - 4 * (i + 1))).toNat % 16))

/-- A mask is printed by its length where it has one. -/
def maskText {w : Nat} (mask : BitVec w) : String :=
  match simpleMaskLength mask with
  | some ones => Nat.repr ones
  | none => hexString mask

def IPNet.String : IPNet → String
  | .v4 ip mask => IPv4.String ip ++ "/" ++ maskText mask
  | .v6 ip mask => IP.String ip ++ "/" ++ maskText mask

example : (ParseCIDR "::ffff:10.9.8.7/104").map IPNet.String = some "10.0.0.0/8" := by
  decide +kernel

/-! Masks, bit by bit. -/

private theorem getLsbD_mask (w ones i : Nat) :
    (CIDRMask w ones).getLsbD i = decide (i < w ∧ w - ones ≤ i) := by
  rw [CIDRMask, BitVec.getLsbD_shiftLeft, BitVec.getLsbD_allOnes]
  by_cases inside : i < w
  · by_cases low : i < w - ones
    · have outside : ¬ w - ones ≤ i := by omega
      simp [inside, low, outside]
    · have offset : i - (w - ones) < w := by omega
      simp only [inside, low, offset]
      simp
      omega
  · simp [inside]

private theorem getMsbD_mask {w ones : Nat} (fits : ones ≤ w) (i : Nat) :
    (CIDRMask w ones).getMsbD i = decide (i < ones) := by
  rw [BitVec.getMsbD_eq_getLsbD, getLsbD_mask]
  by_cases inside : i < w
  · simp only [inside, decide_true, Bool.true_and]
    apply decide_eq_decide.mpr
    omega
  · simp only [inside, decide_false, Bool.false_and]
    symm
    apply decide_eq_false
    omega

private theorem mask_injective {w a b : Nat} (fitsA : a ≤ w) (fitsB : b ≤ w)
    (same : CIDRMask w a = CIDRMask w b) : a = b := by
  have agree (i : Nat) : decide (i < a) = decide (i < b) := by
    rw [← getMsbD_mask fitsA, same, getMsbD_mask fitsB]
  have atA := decide_eq_decide.mp (agree a)
  have atB := decide_eq_decide.mp (agree b)
  omega

private theorem simpleMaskLength_mask {w ones : Nat} (fits : ones ≤ w) :
    simpleMaskLength (CIDRMask w ones) = some ones := by
  cases found : simpleMaskLength (CIDRMask w ones) with
  | none =>
      have refused := List.find?_eq_none.mp found ones (List.mem_range.mpr (by omega))
      exact absurd refused (by simp)
  | some n =>
      have bound : n ≤ w := by
        have member := List.mem_range.mp (List.mem_of_find?_eq_some found)
        omega
      have same : CIDRMask w ones = CIDRMask w n := by
        have accepted := List.find?_some found
        exact of_decide_eq_true accepted
      rw [mask_injective fits bound same]

private theorem maskText_mask {w ones : Nat} (fits : ones ≤ w) :
    maskText (CIDRMask w ones) = Nat.repr ones := by
  rw [maskText, simpleMaskLength_mask fits]

private theorem masked_eq_iff {w ones : Nat} (fits : ones ≤ w) (x y : BitVec w) :
    x &&& CIDRMask w ones = y &&& CIDRMask w ones ↔
      ∀ i < ones, x.getMsbD i = y.getMsbD i := by
  constructor
  · intro same i inside
    have bit := congrArg (fun v => BitVec.getMsbD v i) same
    simpa [getMsbD_mask fits, inside] using bit
  · intro agree
    apply BitVec.eq_of_getMsbD_eq
    intro i _
    rw [BitVec.getMsbD_and, BitVec.getMsbD_and, getMsbD_mask fits]
    by_cases inside : i < ones
    · rw [agree i inside]
    · simp [inside]

private theorem mask_low {ones : Nat} (fits : ones ≤ 128) :
    (CIDRMask 128 ones).extractLsb' 0 32 = CIDRMask 32 (ones - 96) := by
  apply BitVec.eq_of_getLsbD_eq
  intro i inside
  rw [BitVec.getLsbD_extractLsb', getLsbD_mask, getLsbD_mask]
  simp only [inside, decide_true, Bool.true_and, true_and]
  apply decide_eq_decide.mpr
  omega

/-! The IPv4-mapped form. -/

private theorem extract_mapped (v4 : IPv4) : (mapped v4).extractLsb' 0 32 = v4 := by
  apply BitVec.eq_of_getLsbD_eq
  intro i inside
  rw [BitVec.getLsbD_extractLsb', mapped, BitVec.getLsbD_append, Nat.zero_add, if_pos inside,
    decide_eq_true inside, Bool.true_and]

@[simp] theorem To4_mapped (v4 : IPv4) : IP.To4 (mapped v4) = some v4 := by
  have high : (mapped v4).extractLsb' 32 96 = (0xffff : BitVec 96) := by
    apply BitVec.eq_of_getLsbD_eq
    intro i inside
    have above : ¬ 32 + i < 32 := by omega
    rw [BitVec.getLsbD_extractLsb', mapped, BitVec.getLsbD_append, if_neg above,
      Nat.add_sub_cancel_left, decide_eq_true inside, Bool.true_and]
  rw [IP.To4, if_pos high, extract_mapped]

private theorem String_mapped (v4 : IPv4) : IP.String (mapped v4) = IPv4.String v4 := by
  rw [IP.String, To4_mapped]

private theorem getMsbD_mapped (v4 : IPv4) (i : Nat) :
    (mapped v4).getMsbD i =
      if i < 96 then (0xffff : BitVec 96).getMsbD i else v4.getMsbD (i - 96) := by
  rw [mapped, BitVec.getMsbD_append]
  by_cases high : i < 96
  · have low : ¬ 96 ≤ i := by omega
    rw [if_pos high, if_neg low]
  · have low : 96 ≤ i := by omega
    rw [if_neg high, if_pos low]

private theorem mapped_mask {ones : Nat} (fits : ones ≤ 32) (v4 : IPv4) :
    mapped v4 &&& CIDRMask 128 (96 + ones) = mapped (v4 &&& CIDRMask 32 ones) := by
  apply BitVec.eq_of_getMsbD_eq
  intro i _
  rw [BitVec.getMsbD_and, getMsbD_mask (by omega), getMsbD_mapped, getMsbD_mapped]
  by_cases high : i < 96
  · have inside : i < 96 + ones := by omega
    rw [if_pos high, if_pos high, decide_eq_true inside, Bool.and_true]
  · have shift : i < 96 + ones ↔ i - 96 < ones := by omega
    rw [if_neg high, if_neg high, BitVec.getMsbD_and, getMsbD_mask fits,
      decide_eq_decide.mpr shift]

private theorem mapped_needs_ones {ip : IP} {v4 : IPv4} {ones : Nat} (fits : ones ≤ 128)
    (masked : ip &&& CIDRMask 128 ones = ip) (short : IP.To4 ip = some v4) : 96 ≤ ones := by
  have last : ip.getMsbD 95 = true := by
    rw [← mapped_of_To4 short, getMsbD_mapped, if_pos (by omega)]
    decide
  rw [← masked, BitVec.getMsbD_and, getMsbD_mask fits, Bool.and_eq_true] at last
  have inside := of_decide_eq_true last.2
  omega

/-! Networks as prefixes of 16-byte addresses. -/

/-- A network in the one address space that both families share: an IPv4 network is a
prefix of mapped addresses. Host bits of the number are clear. -/
structure Subnet where
  number : IP
  ones : Nat
  fits : ones ≤ 128
  masked : number &&& CIDRMask 128 ones = number
  deriving DecidableEq

/-- The network of the given length around an address. -/
def Subnet.around (ip : IP) (ones : Nat) (fits : ones ≤ 128) : Subnet where
  number := ip &&& CIDRMask 128 ones
  ones := ones
  fits := fits
  masked := by rw [BitVec.and_assoc, BitVec.and_self]

/-- Addresses of the number's own family that agree with it on the prefix. -/
def Subnet.Holds (p : Subnet) (ip : IP) : Prop :=
  ((IP.To4 ip).isSome = (IP.To4 p.number).isSome) ∧
    ∀ i < p.ones, ip.getMsbD i = p.number.getMsbD i

def Subnet.net (p : Subnet) : IPNet :=
  match IP.To4 p.number with
  | some v4 => .v4 v4 (CIDRMask 32 (p.ones - 96))
  | none => .v6 p.number (CIDRMask 128 p.ones)

def Subnet.notedOnes (p : Subnet) : Nat :=
  if (IP.To4 p.number).isSome then p.ones - 96 else p.ones

private theorem Subnet.net_String (p : Subnet) :
    IPNet.String p.net = IP.String p.number ++ "/" ++ Nat.repr p.notedOnes := by
  unfold Subnet.net Subnet.notedOnes
  cases short : IP.To4 p.number with
  | some v4 =>
      have fits : p.ones - 96 ≤ 32 := by
        have bound := p.fits
        omega
      rw [IPNet.String, maskText_mask fits, ← String_mapped, mapped_of_To4 short]
      rfl
  | none =>
      rw [IPNet.String, maskText_mask p.fits]
      rfl

theorem Subnet.net_String_injective {p q : Subnet}
    (same : IPNet.String p.net = IPNet.String q.net) : p = q := by
  rw [p.net_String, q.net_String] at same
  have chars := congrArg String.toList same
  simp only [String.toList_append, List.append_assoc] at chars
  have slashless : '/' ∉ (Nat.repr p.notedOnes).toList :=
    fun slash => absurd (isDigit_of_mem_repr slash) (by decide)
  have parts :=
    (List.append_cons_inj_of_notMem (slash_not_mem_String p.number) slashless).mp chars
  have number : p.number = q.number := String_injective (String.toList_inj.mp parts.1)
  have noted : p.notedOnes = q.notedOnes := toList_repr_inj parts.2.2
  have ones : p.ones = q.ones := by
    unfold Subnet.notedOnes at noted
    rw [number] at noted
    cases short : IP.To4 q.number with
    | none => simpa [short] using noted
    | some v4 =>
        have atP := mapped_needs_ones p.fits p.masked (number ▸ short)
        have atQ := mapped_needs_ones q.fits q.masked short
        simp only [short, Option.isSome_some, if_true] at noted
        omega
  cases p
  cases q
  simp only at number ones
  subst number ones
  rfl

theorem Subnet.net_Contains (p : Subnet) (ip : IP) : p.net.Contains ip = true ↔ p.Holds ip := by
  unfold Subnet.net Subnet.Holds
  cases short : IP.To4 p.number with
  | none =>
      cases family : IP.To4 ip with
      | some v4 => simp [IPNet.Contains, family]
      | none =>
          simp only [IPNet.Contains, family, decide_eq_true_eq, true_and, Option.isSome_none]
          rw [masked_eq_iff p.fits]
          constructor
          · exact fun agree i inside => (agree i inside).symm
          · exact fun agree i inside => (agree i inside).symm
  | some net =>
      cases family : IP.To4 ip with
      | none => simp [IPNet.Contains, family]
      | some v4 =>
          have covered := mapped_needs_ones p.fits p.masked short
          have fits : p.ones - 96 ≤ 32 := by
            have bound := p.fits
            omega
          simp only [IPNet.Contains, family, decide_eq_true_eq, true_and, Option.isSome_some]
          rw [masked_eq_iff fits, ← mapped_of_To4 family, ← mapped_of_To4 short]
          constructor
          · intro agree i inside
            rw [getMsbD_mapped, getMsbD_mapped]
            by_cases high : i < 96
            · rw [if_pos high, if_pos high]
            · rw [if_neg high, if_neg high, agree (i - 96) (by omega)]
          · intro agree i inside
            have bit := agree (96 + i) (by omega)
            have low : ¬ 96 + i < 96 := by omega
            rw [getMsbD_mapped, getMsbD_mapped, if_neg low, if_neg low,
              Nat.add_sub_cancel_left] at bit
            exact bit.symm

/-! What the CIDR parser accepts. -/

private theorem ParseIP_dotted {addr : List Char} {ip : IP}
    (parsed : ParseIP (String.ofList addr) = some ip)
    (dotted : BitLen addr = 32) : ∃ v4, ip = mapped v4 := by
  unfold BitLen at dotted
  split at dotted
  · next first =>
    rw [ParseIP, String.toList_ofList, first] at parsed
    obtain ⟨v4, -, rfl⟩ := Option.map_eq_some_iff.mp parsed
    exact ⟨v4, rfl⟩
  · exact absurd dotted (by decide)

private theorem BitLen_cases (addr : List Char) : BitLen addr = 32 ∨ BitLen addr = 128 := by
  unfold BitLen
  split
  · exact .inl rfl
  · exact .inr rfl

private theorem cutCIDR_spec {s : String} {ip : IP} {bits ones : Nat}
    (cut : cutCIDR s = some (ip, bits, ones)) :
    ones ≤ bits ∧ ((bits = 32 ∧ ∃ v4, ip = mapped v4) ∨ bits = 128) := by
  simp only [cutCIDR] at cut
  split at cut
  · exact absurd cut (by simp)
  · split at cut
    · exact absurd cut (by simp)
    · next parsed =>
      split at cut
      · exact absurd cut (by simp)
      · next accepted =>
        simp only [Option.some.injEq, Prod.mk.injEq] at cut
        obtain ⟨rfl, rfl, rfl⟩ := cut
        push Not at accepted
        refine ⟨accepted.2.2, ?_⟩
        rcases BitLen_cases (s.toList.takeWhile (· ≠ '/')) with short | long
        · exact .inl ⟨short, ParseIP_dotted parsed short⟩
        · exact .inr long

private theorem ones_fit {s : String} {ip : IP} {bits ones : Nat}
    (cut : cutCIDR s = some (ip, bits, ones)) : 128 - bits + ones ≤ 128 := by
  have spec := cutCIDR_spec cut
  omega

def parseSubnet (s : String) : Option Subnet :=
  match cut : cutCIDR s with
  | none => none
  | some (ip, bits, ones) => some (Subnet.around ip (128 - bits + ones) (ones_fit cut))

private theorem parseSubnet_of_cut {s : String} {ip : IP} {bits ones : Nat}
    (cut : cutCIDR s = some (ip, bits, ones)) :
    parseSubnet s = some (Subnet.around ip (128 - bits + ones) (ones_fit cut)) := by
  unfold parseSubnet
  split
  · next none_cut => rw [none_cut] at cut; exact absurd cut (by simp)
  · next other =>
    rw [cut] at other
    simp only [Option.some.injEq, Prod.mk.injEq] at other
    obtain ⟨rfl, rfl, rfl⟩ := other
    rfl

theorem ParseCIDR_eq (s : String) : ParseCIDR s = (parseSubnet s).map Subnet.net := by
  cases cut : cutCIDR s with
  | none =>
      have refused : parseSubnet s = none := by
        unfold parseSubnet
        split
        · rfl
        · next found => rw [cut] at found; exact absurd found (by simp)
      rw [ParseCIDR, cut, refused]
      rfl
  | some parts =>
      obtain ⟨ip, bits, ones⟩ := parts
      have spec := cutCIDR_spec cut
      rw [ParseCIDR, cut, parseSubnet_of_cut cut, Option.map_some]
      rcases spec with ⟨fits, ⟨rfl, v4, rfl⟩ | rfl⟩
      · -- Dotted notation: the mask is extended over the 96 fixed bits.
        have number : mapped v4 &&& CIDRMask 128 (128 - 32 + ones) =
            mapped (v4 &&& CIDRMask 32 ones) := mapped_mask fits v4
        have low : (mapped v4).extractLsb' 0 32 = v4 := extract_mapped v4
        simp only [if_true, low, Subnet.net, Subnet.around, number, To4_mapped,
          Nat.add_sub_cancel_left]
      · have low := mask_low fits
        simp only [Subnet.net, Subnet.around, Nat.sub_self, Nat.zero_add]
        rw [if_neg (by decide), low]
        split <;> rfl

end L3Firewall.Threatintel.Networks
