/- Packet/Denotation
   source: internal/packet/parser.go
   digest: The chain of headers that an IPv6 packet denotes, and that the walk computes it. -/

import L3Firewall.Packet.Evidence

set_option autoImplicit false
set_option relaxedAutoImplicit false

namespace L3Firewall.Packet.Denotation

open Packet.Parser
open Packet.Evidence (walkIndexed walkIndexed_eq)

/-! The chain, as RFC 8200 lays it out. -/

/-- The extension headers of the chain. All but the Fragment header give their length. -/
inductive Extension
  | hopByHop | routing | fragment | destination
  deriving DecidableEq

def Extension.name : Extension → String
  | .hopByHop => "HopByHop"
  | .routing => "Routing"
  | .fragment => "Fragment"
  | .destination => "Destination"

/-- By the numbers assigned to them. Every other number is that of an upper-layer header. -/
def extension (proto : UInt8) : Option Extension :=
  if proto = 0 then some .hopByHop
  else if proto = 43 then some .routing
  else if proto = 44 then some .fragment
  else if proto = 60 then some .destination
  else none

/-- A header of the chain: its number and the place where it begins. -/
structure Node where
  proto : UInt8
  off : Nat
  deriving DecidableEq

def Node.extends (n : Node) : Bool := (extension n.proto).isSome

def Node.isFragment (n : Node) : Bool := decide (extension n.proto = some .fragment)

/-- The bytes of an extension header that are needed to go past it. -/
def Node.needed (n : Node) : Nat := if n.isFragment then 8 else 2

variable (raw : Bytes)

/-- The length of an extension header: a Fragment header has a fixed one, the others give it
in units of 8 bytes, without the first 8. -/
def Node.length (n : Node) : Nat :=
  if n.isFragment then 8 else ((byte raw (n.off + 1)).toNat + 1) * 8

/-- The state of a Fragment header: the lowest bit of its second word is the M flag, the upper
13 bits are the offset. -/
def Node.fragment (n : Node) : FragmentInfo :=
  ⟨true, decide (be16 raw (n.off + 2) % 2 = 1), be16 raw (n.off + 2) / 8, false⟩

/-- The needed bytes of a header are not all there. -/
def Node.cut (n : Node) : Bool := n.extends && decide (raw.length < n.off + n.needed)

/-- A Fragment header of which everything is there, with an offset above zero. -/
def Node.later (n : Node) : Bool :=
  n.isFragment && decide (n.off + 8 ≤ raw.length) && decide (0 < (n.fragment raw).offset)

/-- The chain ends here: at an upper-layer header, at a header that is not all there, or at the
header of a later fragment. -/
def Node.ends (n : Node) : Bool := !n.extends || n.cut raw || n.later raw

/-- The first byte of an extension header is the number of the next. -/
def Node.next (n : Node) : Node := ⟨byte raw n.off, n.off + n.length raw⟩

/-- From a header the chain passes others and ends at one. -/
inductive Chain : Node → List Node → Node → Prop
  | stop {n : Node} (ends : n.ends raw = true) : Chain n [] n
  | pass {n last : Node} {passed : List Node} (goes : n.ends raw = false)
      (rest : Chain (n.next raw) passed last) : Chain n (n :: passed) last

/-- The extension headers of which at least one byte is there. -/
def present (nodes : List Node) : List String :=
  (nodes.filter fun n => decide (n.off < raw.length)).filterMap fun n =>
    (extension n.proto).map Extension.name

/-- A Fragment header that is all there replaces what was known of the fragment. -/
def seen (frag : FragmentInfo) (n : Node) : FragmentInfo :=
  if n.isFragment && decide (n.off + 8 ≤ raw.length) then n.fragment raw else frag

variable {raw} {n last : Node} {passed : List Node}

/-! The table of the walk. -/

private theorem extHeaderTypes_eq (proto : UInt8) :
    extHeaderTypes proto = (extension proto).map Extension.name := by
  unfold extHeaderTypes extension ipProtocolIPv6HopByHop ipProtocolIPv6Routing
    ipProtocolIPv6Fragment ipProtocolIPv6Destination
  repeat' split
  all_goals rfl

theorem extends_eq (n : Node) : n.extends = (extHeaderTypes n.proto).isSome := by
  rw [Node.extends, extHeaderTypes_eq, Option.isSome_map]

private theorem isFragment_eq (n : Node) :
    n.isFragment = decide (n.proto = ipProtocolIPv6Fragment) := by
  have numbered : extension n.proto = some .fragment ↔ n.proto = 44 := by
    unfold extension
    constructor
    · intro known
      repeat' split at known
      all_goals first | assumption | cases known
    · intro same
      rw [same]
      decide
  exact decide_eq_decide.mpr numbered

private theorem present_eq (nodes : List Node) : present raw nodes =
    (nodes.filter fun n => decide (n.off < raw.length)).filterMap fun n =>
      extHeaderTypes n.proto := by
  simp only [present, extHeaderTypes_eq]

/-! One round of the walk. -/

theorem fragment_name (fragment : n.isFragment = true) :
    extHeaderTypes n.proto = some "Fragment" := by
  have same : n.proto = ipProtocolIPv6Fragment := by simpa [isFragment_eq] using fragment
  rw [same]
  rfl

theorem goes_inside (goes : n.ends raw = false) :
    n.extends = true ∧ n.off + n.needed ≤ raw.length ∧ n.later raw = false := by
  simp only [Node.ends, Node.cut, Bool.or_eq_false_iff, Bool.not_eq_false', Bool.and_eq_false_iff,
    decide_eq_false_iff_not, Nat.not_lt] at goes
  obtain ⟨⟨extends_, within⟩, now⟩ := goes
  refine ⟨extends_, ?_, now⟩
  rcases within with upper | within
  · exact absurd extends_ (by simp [upper])
  · exact within

theorem later_whole (later : n.later raw = true) :
    n.isFragment = true ∧ n.off + 8 ≤ raw.length ∧ n.extends = true ∧ n.cut raw = false := by
  simp only [Node.later, Bool.and_eq_true, decide_eq_true_eq] at later
  obtain ⟨⟨fragment, whole⟩, -⟩ := later
  refine ⟨fragment, whole, by rw [extends_eq, fragment_name fragment]; rfl, ?_⟩
  rw [Node.cut, Node.needed, if_pos fragment, decide_eq_false (Nat.not_lt.mpr whole),
    Bool.and_false]

theorem needed_pos (n : Node) : 2 ≤ n.needed := by
  unfold Node.needed
  split <;> omega

private theorem length_ge (raw : Bytes) (n : Node) : 8 ≤ n.length raw := by
  unfold Node.length
  split <;> omega

/-- The result of the walk from a header on, when it has passed some and ends at one. -/
def result (raw : Bytes) (ext : List String) (frag : FragmentInfo) (passed : List Node)
    (last : Node) : IPv6HeaderChain where
  l4Proto := if last.later raw then byte raw last.off else last.proto
  l4Offset := if last.extends then none else if last.off < raw.length then some last.off else none
  extHeaders := ext ++ present raw (passed ++ [last])
  fragment := (passed ++ [last]).foldl (seen raw) frag

private theorem walk_stop (ends : n.ends raw = true) (budget : Nat) (ext : List String)
    (frag : FragmentInfo) :
    walk raw (budget + 1) n.proto n.off ext frag = result raw ext frag [] n := by
  rw [result, walk]
  cases known : extHeaderTypes n.proto with
  | none =>
      have upper : n.extends = false := by simp [extends_eq, known]
      have other : n.isFragment = false := by
        by_contra fragment
        rw [fragment_name (Bool.eq_true_of_not_eq_false fragment)] at known
        exact absurd known (by simp)
      simp [Node.later, present_eq, seen, upper, other, known]
  | some name =>
      have extends_ : n.extends = true := by simp [extends_eq, known]
      dsimp only
      by_cases past : raw.length ≤ n.off
      · have gone : ¬ n.off < raw.length := by omega
        have short : ¬ n.off + 8 ≤ raw.length := by omega
        rw [if_pos past]
        simp [Node.later, present_eq, seen, extends_, gone, short]
      · have begun : n.off < raw.length := by omega
        rw [if_neg past]
        by_cases fragment : n.proto = ipProtocolIPv6Fragment
        · have isFragment : n.isFragment = true := by simp [isFragment_eq, fragment]
          rw [if_pos fragment]
          by_cases short : raw.length < n.off + ipv6FragmentHeaderLen
          · have missing : ¬ n.off + 8 ≤ raw.length := Nat.not_le.mpr short
            rw [if_pos short]
            simp [Node.later, present_eq, seen, extends_, begun, missing, known]
          · have whole : n.off + 8 ≤ raw.length := Nat.not_lt.mp short
            rw [if_neg short]
            by_cases later : 0 < be16 raw (n.off + 2) / 8
            · rw [if_pos later]
              simp [Node.later, Node.fragment, present_eq, seen, extends_, begun, whole, known,
                isFragment, later]
            · have goes : n.ends raw = false := by
                simp [Node.ends, Node.cut, Node.needed, Node.later, Node.fragment, extends_,
                  isFragment, whole, later]
              exact absurd ends (by simp [goes])
        · have other : n.isFragment = false := by simp [isFragment_eq, fragment]
          rw [if_neg fragment]
          by_cases short : raw.length < n.off + 2
          · rw [if_pos short]
            simp [Node.later, present_eq, seen, extends_, begun, known, other]
          · have goes : n.ends raw = false := by
              simp [Node.ends, Node.cut, Node.needed, Node.later, extends_, other,
                Nat.not_lt.mp short]
            exact absurd ends (by simp [goes])

private theorem walk_pass (goes : n.ends raw = false) (budget : Nat) (ext : List String)
    (frag : FragmentInfo) :
    walk raw (budget + 1) n.proto n.off ext frag =
      walk raw budget (n.next raw).proto (n.next raw).off (ext ++ present raw [n])
        (seen raw frag n) := by
  obtain ⟨extends_, within, now⟩ := goes_inside goes
  obtain ⟨name, known⟩ := Option.isSome_iff_exists.mp ((extends_eq n).symm.trans extends_)
  have begun : n.off < raw.length := by
    have needed := needed_pos n
    omega
  have listed : present raw [n] = [name] := by simp [present_eq, begun, known]
  rw [walk, known, listed]
  dsimp only
  rw [if_neg (Nat.not_le.mpr begun)]
  by_cases fragment : n.proto = ipProtocolIPv6Fragment
  · have isFragment : n.isFragment = true := by simp [isFragment_eq, fragment]
    have whole : n.off + 8 ≤ raw.length := by simpa [Node.needed, isFragment] using within
    have first : ¬ 0 < be16 raw (n.off + 2) / 8 := by
      simpa [Node.later, Node.fragment, isFragment, whole] using now
    have complete : ¬ raw.length < n.off + ipv6FragmentHeaderLen := Nat.not_lt.mpr whole
    rw [if_pos fragment, if_neg complete, if_neg first]
    simp only [Node.next, Node.length, seen, isFragment, whole, decide_true, Bool.and_self, if_true]
    rfl
  · have other : n.isFragment = false := by simp [isFragment_eq, fragment]
    have there : n.off + 2 ≤ raw.length := by simpa [Node.needed, other] using within
    rw [if_neg fragment, if_neg (Nat.not_lt.mpr there)]
    simp [Node.next, Node.length, seen, other]

/-! The whole chain. -/

theorem Chain.short (chain : Chain raw n passed last) : passed.length ≤ raw.length - n.off := by
  induction chain with
  | stop => exact Nat.zero_le _
  | @pass n last passed goes rest ih =>
      obtain ⟨-, within, -⟩ := goes_inside goes
      have needed := needed_pos n
      have far := length_ge raw n
      have moved : (n.next raw).off = n.off + n.length raw := rfl
      rw [moved] at ih
      rw [List.length_cons]
      omega

theorem chain_exists (raw : Bytes) (n : Node) : ∃ passed last, Chain raw n passed last := by
  by_cases ends : n.ends raw = true
  · exact ⟨[], n, .stop ends⟩
  · have goes : n.ends raw = false := Bool.eq_false_iff.mpr ends
    obtain ⟨passed, last, rest⟩ := chain_exists raw (n.next raw)
    exact ⟨n :: passed, last, .pass goes rest⟩
termination_by raw.length - n.off
decreasing_by
  obtain ⟨-, within, -⟩ := goes_inside goes
  have needed := needed_pos n
  have far := length_ge raw n
  show raw.length - (n.off + n.length raw) < raw.length - n.off
  omega

private theorem Chain.unique (chain : Chain raw n passed last) {passed' : List Node} {last' : Node}
    (other : Chain raw n passed' last') : passed' = passed ∧ last' = last := by
  induction chain generalizing passed' last' with
  | stop ends =>
      cases other with
      | stop => exact ⟨rfl, rfl⟩
      | pass goes => exact absurd ends (by simp [goes])
  | pass goes rest ih =>
      cases other with
      | stop ends => exact absurd ends (by simp [goes])
      | pass _ further =>
          obtain ⟨same, end_same⟩ := ih further
          exact ⟨congrArg _ same, end_same⟩

theorem Chain.ended (chain : Chain raw n passed last) : last.ends raw = true := by
  induction chain with
  | stop ends => exact ends
  | pass _ _ ih => exact ih

private theorem Chain.place (chain : Chain raw n passed last) :
    last.off = n.off + (passed.map (Node.length raw)).sum := by
  induction chain with
  | stop => simp
  | @pass n last passed goes rest ih =>
      have moved : (n.next raw).off = n.off + n.length raw := rfl
      rw [ih, moved, List.map_cons, List.sum_cons, Nat.add_assoc]

theorem Chain.walked (chain : Chain raw n passed last) {budget : Nat}
    (enough : passed.length < budget) (ext : List String) (frag : FragmentInfo) :
    walk raw budget n.proto n.off ext frag = result raw ext frag passed last := by
  induction chain generalizing budget ext frag with
  | stop ends =>
      obtain ⟨rounds, rfl⟩ : ∃ rounds, budget = rounds + 1 := ⟨budget - 1, by omega⟩
      exact walk_stop ends rounds ext frag
  | @pass n last passed goes rest ih =>
      rw [List.length_cons] at enough
      obtain ⟨rounds, rfl⟩ : ∃ rounds, budget = rounds + 1 := ⟨budget - 1, by omega⟩
      have listed : present raw [n] ++ present raw (passed ++ [last]) =
          present raw (n :: passed ++ [last]) := by
        rw [present, present, ← List.filterMap_append, ← List.filter_append]
        rfl
      rw [walk_pass goes, ih (by omega), result, result, List.append_assoc, listed]
      rfl

/-- The walk over any bytes, from any first number: it ends within as many rounds as there are
headers, no index is out of range, and it returns what the chain from offset 40 denotes. -/
theorem walk_denotes_chain (raw : Bytes) (first : UInt8) :
    ∃ passed last, Chain raw ⟨first, 40⟩ passed last ∧
      (∀ passed' last', Chain raw ⟨first, 40⟩ passed' last' → passed' = passed ∧ last' = last) ∧
      (∀ budget, passed.length < budget → walkIndexed raw budget first 40 [] .none =
        some (walkIPv6HeaderChain raw first)) ∧
      last.off = 40 + (passed.map (Node.length raw)).sum ∧
      (walkIPv6HeaderChain raw first).extHeaders = present raw (passed ++ [last]) ∧
      (last.cut raw = true → (walkIPv6HeaderChain raw first).l4Proto = last.proto ∧
        (walkIPv6HeaderChain raw first).l4Offset = none) ∧
      (last.later raw = true → (walkIPv6HeaderChain raw first).l4Proto = byte raw last.off ∧
        (walkIPv6HeaderChain raw first).l4Offset = none ∧
        (walkIPv6HeaderChain raw first).fragment = last.fragment raw) ∧
      (last.cut raw = false → last.later raw = false →
        extension last.proto = none ∧
        (walkIPv6HeaderChain raw first).l4Proto = last.proto ∧
        (walkIPv6HeaderChain raw first).l4Offset =
          if last.off < raw.length then some last.off else none) := by
  obtain ⟨passed, last, chain⟩ := chain_exists raw ⟨first, 40⟩
  have short := chain.short
  have walked : walkIPv6HeaderChain raw first = result raw [] .none passed last :=
    chain.walked (by omega) [] .none
  refine ⟨passed, last, chain, fun _ _ other => chain.unique other, ?_, chain.place, ?_, ?_, ?_, ?_⟩
  · intro budget enough
    rw [walkIndexed_eq, chain.walked enough [] .none, walked]
  · rw [walked]
    rfl
  · intro cut
    have extends_ : last.extends = true := ((Bool.and_eq_true _ _).mp cut).1
    have now : last.later raw = false := by
      by_contra later
      have whole := (later_whole (Bool.eq_true_of_not_eq_false later)).2.2.2
      exact absurd cut (by simp [whole])
    rw [walked, result, now, extends_]
    exact ⟨rfl, rfl⟩
  · intro later
    obtain ⟨fragment, whole, extends_, -⟩ := later_whole later
    have state : (passed ++ [last]).foldl (seen raw) .none = last.fragment raw := by
      rw [List.foldl_append, List.foldl_cons, List.foldl_nil, seen, fragment, decide_eq_true whole]
      rfl
    rw [walked, result, later, extends_, state]
    exact ⟨rfl, rfl, rfl⟩
  · intro whole now
    have upper : last.extends = false := by
      have ended := chain.ended
      simpa [Node.ends, whole, now] using ended
    rw [walked, result, now, upper]
    exact ⟨by simpa [Node.extends] using upper, rfl, rfl⟩

end L3Firewall.Packet.Denotation
