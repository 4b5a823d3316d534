/- Net/RoundTrip
   source: package net of the Go standard library, as internal/* uses it
   digest: Printed addresses parse back, so normalised spellings are fixed points. -/

import L3Firewall.Foundation.Decimal
import L3Firewall.Net.Address
import Mathlib.Data.List.TakeWhile

set_option autoImplicit false
set_option relaxedAutoImplicit false

namespace L3Firewall.Net.RoundTrip

open Address
open Foundation.Decimal (isDigit_of_mem_repr toDigits_first)

private theorem decimal_toDigits (n : Nat) : decimal (Nat.toDigits 10 n) = n := by
  have same : decimal (Nat.toDigits 10 n) = Nat.ofDigitChars 10 (Nat.toDigits 10 n) 0 := by
    rw [decimal, Nat.ofDigitChars]
    apply List.foldl_ext
    intro sofar c _
    rw [Nat.mul_comm]
  rw [same, Nat.ofDigitChars_ten_toDigits]

private theorem octet_repr {n : Nat} (small : n < 256) : octet (Nat.repr n).toList = some n := by
  obtain ⟨d, cs, text, alone⟩ := toDigits_first n
  have all : (Nat.toDigits 10 n).all Char.isDigit = true := List.all_eq_true.mpr fun c member =>
    Nat.isDigit_of_mem_toDigits (by decide) (by decide) member
  have accepted : ¬ (Nat.toDigits 10 n = [] ∨ ¬ (Nat.toDigits 10 n).all Char.isDigit = true ∨
      1 < (Nat.toDigits 10 n).length ∧ (Nat.toDigits 10 n).head? = some '0') := by
    rintro (none | other | ⟨long, zero⟩)
    · exact absurd (text.symm.trans none) (List.cons_ne_nil d cs)
    · exact other all
    · rw [text] at long zero
      rw [alone (Option.some.inj zero)] at long
      exact Nat.lt_irrefl 1 long
  rw [Nat.toList_repr, octet, if_neg accepted, decimal_toDigits, if_pos (Nat.le_of_lt_succ small)]

private theorem octets_lt (v4 : IPv4) : ∀ n ∈ octets v4, n < 256 := by
  intro n member
  simp only [octets, List.map_cons, List.map_nil, List.mem_cons, List.not_mem_nil,
    or_false] at member
  rcases member with rfl | rfl | rfl | rfl <;> exact BitVec.isLt _

private theorem ofOctets (v4 : IPv4) :
    (match octets v4 with
      | [a, b, c, d] => BitVec.ofNat 32 (((a * 256 + b) * 256 + c) * 256 + d)
      | _ => 0) = v4 := by
  apply BitVec.eq_of_toNat_eq
  have bound := v4.isLt
  simp only [octets, List.map_cons, List.map_nil, BitVec.extractLsb'_toNat, BitVec.toNat_ofNat,
    Nat.shiftRight_eq_div_pow]
  omega

private theorem mapM_octet (ns : List Nat) (small : ∀ n ∈ ns, n < 256) :
    (ns.map fun n => (Nat.repr n).toList).mapM octet = some ns := by
  induction ns with
  | nil => rfl
  | cons n ns ih =>
      have head := octet_repr (small n List.mem_cons_self)
      have tail := ih fun m member => small m (List.mem_cons_of_mem n member)
      simp only [List.map_cons, List.mapM_cons, head, tail]
      rfl

private theorem parse_dotted (v4 : IPv4) :
    parseIPv4Fields (['.'].intercalate ((octets v4).map fun n => (Nat.repr n).toList)) =
      some v4 := by
  have dotless : ∀ l ∈ (octets v4).map (fun n => (Nat.repr n).toList), '.' ∉ l := by
    intro l member
    obtain ⟨n, -, rfl⟩ := List.mem_map.mp member
    exact fun dot => absurd (isDigit_of_mem_repr dot) (by decide)
  rw [parseIPv4Fields, List.splitOn_intercalate _ dotless (by simp [octets]),
    mapM_octet _ (octets_lt v4)]
  exact congrArg some (ofOctets v4)

private theorem find_separator {s : List Char} {c : Char} (sep : c = '.' ∨ c = ':')
    (chars : ∀ d ∈ s, isHex d = true ∨ d = c) (member : c ∈ s) :
    s.find? (fun c => c = '.' || c = ':' || c = '%') = some c := by
  cases found : s.find? (fun c => c = '.' || c = ':' || c = '%') with
  | none =>
      have none_sep := List.find?_eq_none.mp found c member
      rcases sep with rfl | rfl <;> simp at none_sep
  | some d =>
      have is_sep := List.find?_some found
      rcases chars d (List.mem_of_find?_eq_some found) with hex | rfl
      · simp only [Bool.or_eq_true, decide_eq_true_eq] at is_sep
        rcases is_sep with (rfl | rfl) | rfl <;> exact absurd hex (by decide)
      · rfl

private theorem isHex_of_isDigit {c : Char} (digit : c.isDigit = true) : isHex c = true := by
  simp [isHex, digit]

private theorem mem_intercalate {c d : Char} {ls : List (List Char)}
    (member : d ∈ [c].intercalate ls) : d = c ∨ ∃ l ∈ ls, d ∈ l := by
  induction ls with
  | nil => simp [List.intercalate] at member
  | cons l ls ih =>
      cases ls with
      | nil => exact .inr ⟨l, by simp, by simpa [List.intercalate] using member⟩
      | cons l' ls =>
          simp only [List.intercalate, List.intersperse_cons_cons, List.flatten_cons,
            List.mem_append, List.mem_singleton] at member
          rcases member with inside | rfl | later
          · exact .inr ⟨l, List.mem_cons_self, inside⟩
          · exact .inl rfl
          · rcases ih later with same | ⟨k, hk, inside⟩
            · exact .inl same
            · exact .inr ⟨k, List.mem_cons_of_mem l hk, inside⟩

private theorem dotted_chars (v4 : IPv4) :
    ∀ d ∈ ['.'].intercalate ((octets v4).map fun n => (Nat.repr n).toList),
      isHex d = true ∨ d = '.' := by
  intro d member
  rcases mem_intercalate member with rfl | ⟨l, inside, hd⟩
  · exact .inr rfl
  · obtain ⟨n, -, rfl⟩ := List.mem_map.mp inside
    exact .inl (isHex_of_isDigit (isDigit_of_mem_repr hd))

private theorem parse_IPv4_String (v4 : IPv4) : ParseIP (IPv4.String v4) = some (mapped v4) := by
  have dotted : '.' ∈ ['.'].intercalate ((octets v4).map fun n => (Nat.repr n).toList) := by
    simp [octets, List.intercalate]
  rw [ParseIP, IPv4.String, String.toList_ofList,
    find_separator (.inl rfl) (dotted_chars v4) dotted]
  exact congrArg (Option.map mapped) (parse_dotted v4)

private theorem digitChar_hex : ∀ n < 16,
    isHex (Nat.digitChar n) = true ∧ hexDigit (Nat.digitChar n) = n := by
  decide

private theorem appendHex_isHex {g : Nat} (small : g < 65536) :
    ∀ c ∈ appendHex g, isHex c = true := by
  intro c member
  simp only [appendHex, List.mem_append, List.mem_singleton] at member
  have nibble (n : Nat) (h : n < 16) := (digitChar_hex n h).1
  rcases member with ((first | second) | third) | rfl
  · split at first
    · obtain rfl := List.mem_singleton.mp first
      exact nibble _ (by omega)
    · simp at first
  · split at second
    · obtain rfl := List.mem_singleton.mp second
      exact nibble _ (by omega)
    · simp at second
  · split at third
    · obtain rfl := List.mem_singleton.mp third
      exact nibble _ (by omega)
    · simp at third
  · exact nibble _ (by omega)

private theorem appendHex_shape (g : Nat) :
    appendHex g ≠ [] ∧ (appendHex g).length ≤ 4 := by
  unfold appendHex
  constructor
  · simp
  · split_ifs <;> simp

private theorem hexadecimal_appendHex {g : Nat} (small : g < 65536) :
    hexadecimal (appendHex g) = g := by
  have nibble (n : Nat) (h : n < 16) := (digitChar_hex n h).2
  have top : g / 0x1000 < 16 := by omega
  unfold hexadecimal appendHex
  split_ifs <;>
    simp only [List.cons_append, List.nil_append, List.foldl_cons, List.foldl_nil,
      nibble _ top, nibble _ (Nat.mod_lt _ (by decide : 0 < 16))] <;> omega

section Groups

variable {g : Nat} (small : g < 65536) (budget : Nat) (read : List Nat) (ellipsis : Option Nat)
include small

private theorem takeWhile_appendHex (rest : List Char) :
    (appendHex g ++ ':' :: rest).takeWhile isHex = appendHex g := by
  rw [List.takeWhile_append_of_pos (appendHex_isHex small)]
  simp [show isHex ':' = false by decide]

private theorem dropWhile_appendHex (rest : List Char) :
    (appendHex g ++ ':' :: rest).dropWhile isHex = ':' :: rest := by
  rw [List.dropWhile_append_of_pos (appendHex_isHex small)]
  simp [show isHex ':' = false by decide]

private theorem parseGroups_last :
    parseGroups (budget + 1) (appendHex g) read ellipsis = some (read ++ [g], ellipsis) := by
  have all := appendHex_isHex small
  have shape := appendHex_shape g
  have take : (appendHex g).takeWhile isHex = appendHex g := List.takeWhile_eq_self_iff.mpr all
  have drop : (appendHex g).dropWhile isHex = [] := List.dropWhile_eq_nil_iff.mpr all
  simp [parseGroups, take, drop, shape.1, shape.2, hexadecimal_appendHex small]

private theorem parseGroups_colon {c : Char} (other : c ≠ ':') (rest : List Char) :
    parseGroups (budget + 1) (appendHex g ++ ':' :: c :: rest) read ellipsis =
      parseGroups budget (c :: rest) (read ++ [g]) ellipsis := by
  have shape := appendHex_shape g
  have long : ¬ 4 < (appendHex g).length := by omega
  simp only [parseGroups, takeWhile_appendHex small, dropWhile_appendHex small, shape.1, long,
    or_self, if_false, hexadecimal_appendHex small]
  split
  · next heq => simp at heq
  · next heq => simp at heq
  · next heq => simp at heq
  · next heq => simp [other] at heq
  · next heq => obtain ⟨-, rfl⟩ := List.cons.inj heq; rfl
  · next other_head => exact (other_head _ rfl).elim

private theorem parseGroups_ellipsis (rest : List Char) :
    parseGroups (budget + 1) (appendHex g ++ ':' :: ':' :: rest) read none =
      if rest = [] then some (read ++ [g], some (read ++ [g]).length)
      else parseGroups budget rest (read ++ [g]) (some (read ++ [g]).length) := by
  have shape := appendHex_shape g
  have long : ¬ 4 < (appendHex g).length := by omega
  simp [parseGroups, takeWhile_appendHex small, dropWhile_appendHex small, shape.1, long,
    hexadecimal_appendHex small]

end Groups

private theorem colonJoin_cons_cons (g h : Nat) (gs : List Nat) :
    colonJoin (g :: h :: gs) = appendHex g ++ ':' :: colonJoin (h :: gs) := by
  simp [colonJoin, List.intercalate]

private theorem colonJoin_singleton (g : Nat) : colonJoin [g] = appendHex g := by
  simp [colonJoin, List.intercalate]

private theorem colonJoin_head {g : Nat} {gs : List Nat} (small : g < 65536) :
    ∃ c rest, colonJoin (g :: gs) = c :: rest ∧ c ≠ ':' := by
  obtain ⟨c, rest, shape⟩ := List.exists_cons_of_ne_nil (appendHex_shape g).1
  have hex : isHex c = true := appendHex_isHex small c (by rw [shape]; exact List.mem_cons_self)
  have other : c ≠ ':' := by
    rintro rfl
    exact absurd hex (by decide)
  cases gs with
  | nil => exact ⟨c, rest, by rw [colonJoin_singleton, shape], other⟩
  | cons h gs =>
      exact ⟨c, rest ++ ':' :: colonJoin (h :: gs), by rw [colonJoin_cons_cons, shape]; rfl, other⟩

private theorem parseGroups_colonJoin (gs : List Nat) (small : ∀ g ∈ gs, g < 65536)
    (nonempty : gs ≠ []) (budget : Nat) (fits : gs.length ≤ budget) (read : List Nat)
    (ellipsis : Option Nat) :
    parseGroups budget (colonJoin gs) read ellipsis = some (read ++ gs, ellipsis) := by
  induction gs generalizing budget read with
  | nil => exact absurd rfl nonempty
  | cons g gs ih =>
      obtain ⟨budget, rfl⟩ : ∃ b, budget = b + 1 := ⟨budget - 1, by simp at fits; omega⟩
      have head := small g List.mem_cons_self
      have tail : ∀ h ∈ gs, h < 65536 := fun h member => small h (List.mem_cons_of_mem g member)
      cases gs with
      | nil => rw [colonJoin_singleton, parseGroups_last head]
      | cons h gs =>
          obtain ⟨c, rest, shape, other⟩ := @colonJoin_head h gs (tail h List.mem_cons_self)
          rw [colonJoin_cons_cons, shape, parseGroups_colon head _ _ _ other, ← shape,
            ih tail (by simp) budget (by simpa using fits)]
          simp

private theorem parseGroups_before (before : List Nat) (small : ∀ g ∈ before, g < 65536)
    (nonempty : before ≠ []) (budget : Nat) (read : List Nat) (rest : List Char) :
    parseGroups (before.length + budget) (colonJoin before ++ ':' :: ':' :: rest) read none =
      if rest = [] then some (read ++ before, some (read ++ before).length)
      else parseGroups budget rest (read ++ before) (some (read ++ before).length) := by
  induction before generalizing read with
  | nil => exact absurd rfl nonempty
  | cons g gs ih =>
      have head := small g List.mem_cons_self
      have tail : ∀ h ∈ gs, h < 65536 := fun h member => small h (List.mem_cons_of_mem g member)
      rw [List.length_cons, Nat.add_right_comm]
      cases gs with
      | nil =>
          rw [colonJoin_singleton, parseGroups_ellipsis head]
          simp
      | cons h gs =>
          obtain ⟨c, later, shape, other⟩ := @colonJoin_head h gs (tail h List.mem_cons_self)
          rw [colonJoin_cons_cons, List.append_assoc, List.cons_append, shape, List.cons_append,
            parseGroups_colon head _ _ _ other, ← List.cons_append, ← shape, ih tail (by simp)]
          simp

private theorem zeroRun_split (gs : List Nat) (i : Nat) :
    gs.take i ++ List.replicate (zeroRun gs i) 0 ++ gs.drop (i + zeroRun gs i) = gs := by
  have zeros : (gs.drop i).takeWhile (· = 0) = List.replicate (zeroRun gs i) 0 := by
    apply List.eq_replicate_iff.mpr
    refine ⟨rfl, fun g member => ?_⟩
    simpa using List.mem_takeWhile_imp member
  have rest : (gs.drop i).dropWhile (· = 0) = gs.drop (i + zeroRun gs i) := by
    have dropped : ((gs.drop i).takeWhile (· = 0) ++ (gs.drop i).dropWhile (· = 0)).drop
        (zeroRun gs i) = (gs.drop i).drop (zeroRun gs i) := by
      rw [List.takeWhile_append_dropWhile]
    rwa [zeroRun, List.drop_left, ← zeroRun, List.drop_drop] at dropped
  rw [← zeros, ← rest, List.append_assoc, List.takeWhile_append_dropWhile, List.take_append_drop]

private theorem longestZeroRun_spec (gs : List Nat) (start l : Nat)
    (found : longestZeroRun gs = some (start, l)) : 2 ≤ l ∧ l = zeroRun gs start := by
  have scan : ∀ (is : List Nat) (best : Option (Nat × Nat)),
      (∀ p, best = some p → 2 ≤ p.2 ∧ p.2 = zeroRun gs p.1) →
      ∀ p, is.foldl (fun best i =>
        let l := zeroRun gs i
        if 2 ≤ l ∧ (best.map Prod.snd).getD 0 < l then some (i, l) else best) best = some p →
        2 ≤ p.2 ∧ p.2 = zeroRun gs p.1 := by
    intro is
    induction is with
    | nil => exact fun best valid p done => valid p done
    | cons i is ih =>
        intro best valid p done
        refine ih _ ?_ p done
        intro q step
        dsimp only at step
        split at step
        · next better =>
          obtain rfl := Option.some.inj step
          exact ⟨better.1, rfl⟩
        · exact valid q step
  exact scan (List.range 8) none (by simp) (start, l) found

private theorem append_group (n k : Nat) :
    n / 2 ^ (k + 16) * 65536 + n / 2 ^ k % 2 ^ 16 = n / 2 ^ k := by
  rw [Nat.pow_add, ← Nat.div_div_eq_div_mul]
  exact Nat.div_add_mod' (n / 2 ^ k) (2 ^ 16)

private theorem ofGroups_groups (ip : IP) : ofGroups (groups ip) = ip := by
  apply BitVec.eq_of_toNat_eq
  have first : 0 * 65536 + ip.toNat / 2 ^ 112 % 2 ^ 16 = ip.toNat / 2 ^ 112 := by
    have bound := ip.isLt
    omega
  simp only [ofGroups, groups, List.map_cons, List.map_nil, List.foldl_cons, List.foldl_nil,
    BitVec.extractLsb'_toNat, BitVec.toNat_ofNat, Nat.shiftRight_eq_div_pow]
  rw [first, append_group _ 96, append_group _ 80, append_group _ 64, append_group _ 48,
    append_group _ 32, append_group _ 16, append_group _ 0, Nat.pow_zero, Nat.div_one]
  exact Nat.mod_eq_of_lt ip.isLt

private theorem groups_lt (ip : IP) : ∀ g ∈ groups ip, g < 65536 := by
  intro g member
  obtain ⟨k, -, rfl⟩ := List.mem_map.mp member
  exact BitVec.isLt _

private theorem colonJoin_chars (gs : List Nat) (small : ∀ g ∈ gs, g < 65536) :
    ∀ c ∈ colonJoin gs, isHex c = true ∨ c = ':' := by
  intro c member
  rcases mem_intercalate member with rfl | ⟨l, inside, hc⟩
  · exact .inr rfl
  · obtain ⟨g, hg, rfl⟩ := List.mem_map.mp inside
    exact .inl (appendHex_isHex (small g hg) c hc)

private theorem appendTo6_chars (gs : List Nat) (small : ∀ g ∈ gs, g < 65536) :
    ∀ c ∈ appendTo6 gs, isHex c = true ∨ c = ':' := by
  intro c member
  unfold appendTo6 at member
  split at member
  · exact colonJoin_chars gs small c member
  · simp only [List.mem_append, List.mem_cons] at member
    rcases member with first | rfl | rfl | last
    · exact colonJoin_chars _ (fun g hg => small g (List.mem_of_mem_take hg)) c first
    · exact .inr rfl
    · exact .inr rfl
    · exact colonJoin_chars _ (fun g hg => small g (List.mem_of_mem_drop hg)) c last

private theorem appendTo6_colon (gs : List Nat) (eight : gs.length = 8) : ':' ∈ appendTo6 gs := by
  unfold appendTo6
  split
  · match gs, eight with
    | g :: h :: gs, _ =>
        rw [colonJoin_cons_cons]
        simp
  · simp

private theorem parseColons_plain {c : Char} (other : c ≠ ':') (rest : List Char) :
    parseColons (c :: rest) = parseGroups 8 (c :: rest) [] none := by
  unfold parseColons
  split
  · next same => exact absurd (List.cons.inj same).1 other
  · next same => exact absurd (List.cons.inj same).1 other
  · rfl

private theorem parseColons_leading {c : Char} (rest : List Char) :
    parseColons (':' :: ':' :: c :: rest) = parseGroups 8 (c :: rest) [] (some 0) := rfl

private theorem parse_uncompressed (gs : List Nat) (small : ∀ g ∈ gs, g < 65536)
    (eight : gs.length = 8) (pure : '%' ∉ colonJoin gs) :
    parseIPv6 (colonJoin gs) = some (ofGroups gs) := by
  obtain ⟨g, tail, rfl⟩ := List.exists_cons_of_ne_nil (l := gs) (by rintro rfl; simp at eight)
  obtain ⟨c, rest, shape, other⟩ := @colonJoin_head g tail (small g List.mem_cons_self)
  have run := parseGroups_colonJoin (g :: tail) small (by simp) 8 (by omega) [] none
  rw [shape, ← parseColons_plain other, ← shape, List.nil_append] at run
  rw [parseIPv6, if_neg pure, run, Option.bind_some, expandEllipsis, if_pos eight]
  rfl

private theorem parseColons_after (after : List Nat) (small : ∀ g ∈ after, g < 65536)
    (fits : after.length ≤ 8) :
    parseColons (':' :: ':' :: colonJoin after) = some (after, some 0) := by
  cases after with
  | nil => rfl
  | cons g gs =>
      obtain ⟨c, rest, shape, -⟩ := @colonJoin_head g gs (small g List.mem_cons_self)
      rw [shape, parseColons_leading, ← shape, parseGroups_colonJoin _ small (by simp) 8 fits]
      rfl

private theorem parseColons_split (before after : List Nat)
    (small : ∀ g ∈ before ++ after, g < 65536) (fits : before.length + after.length ≤ 8) :
    parseColons (colonJoin before ++ ':' :: ':' :: colonJoin after) =
      some (before ++ after, some before.length) := by
  have small_after : ∀ g ∈ after, g < 65536 := fun g hg => small g (List.mem_append_right _ hg)
  cases before with
  | nil => exact parseColons_after after small_after (by simpa using fits)
  | cons g gs =>
      have small_before : ∀ h ∈ g :: gs, h < 65536 :=
        fun h hh => small h (List.mem_append_left _ hh)
      obtain ⟨c, rest, shape, other⟩ := @colonJoin_head g gs (small_before g List.mem_cons_self)
      have run := parseGroups_before (g :: gs) small_before (by simp) (8 - (g :: gs).length) []
        (colonJoin after)
      rw [Nat.add_sub_of_le (by omega), List.nil_append] at run
      rw [shape, List.cons_append, parseColons_plain other, ← List.cons_append, ← shape, run]
      cases after with
      | nil => simp [colonJoin, List.intercalate]
      | cons h hs =>
          obtain ⟨d, more, later, -⟩ := @colonJoin_head h hs (small_after h List.mem_cons_self)
          rw [if_neg (by simp [later]), parseGroups_colonJoin (h :: hs) small_after (by simp)
            _ (by omega)]

private theorem parse_compressed (before after : List Nat) (l : Nat)
    (small : ∀ g ∈ before ++ after, g < 65536) (two : 2 ≤ l)
    (eight : before.length + l + after.length = 8)
    (pure : '%' ∉ colonJoin before ++ ':' :: ':' :: colonJoin after) :
    parseIPv6 (colonJoin before ++ ':' :: ':' :: colonJoin after) =
      some (ofGroups (before ++ List.replicate l 0 ++ after)) := by
  have missing : 8 - (before ++ after).length = l := by rw [List.length_append]; omega
  rw [parseIPv6, if_neg pure, parseColons_split before after small (by omega), Option.bind_some,
    expandEllipsis, if_pos (by rw [List.length_append]; omega), missing, List.take_left,
    List.drop_left]
  rfl

private theorem parse_appendTo6 (ip : IP) :
    parseIPv6 (appendTo6 (groups ip)) = some ip := by
  have small := groups_lt ip
  have eight : (groups ip).length = 8 := rfl
  have pure : '%' ∉ appendTo6 (groups ip) := by
    intro member
    rcases appendTo6_chars (groups ip) small '%' member with hex | colon
    · exact absurd hex (by decide)
    · exact absurd colon (by decide)
  unfold appendTo6 at pure ⊢
  split at pure
  · rw [parse_uncompressed _ small eight pure, ofGroups_groups]
  · next start l found =>
    obtain ⟨two, run⟩ := longestZeroRun_spec _ start l found
    have whole := zeroRun_split (groups ip) start
    rw [← run] at whole
    have sizes := congrArg List.length whole
    simp only [List.length_append, List.length_replicate, eight] at sizes
    rw [parse_compressed _ _ l _ two sizes pure, whole, ofGroups_groups]
    intro g member
    rcases List.mem_append.mp member with first | last
    · exact small g (List.mem_of_mem_take first)
    · exact small g (List.mem_of_mem_drop last)

theorem mapped_of_To4 {ip : IP} {v4 : IPv4} (short : IP.To4 ip = some v4) :
    mapped v4 = ip := by
  unfold IP.To4 at short
  split at short
  · next high =>
    obtain rfl := Option.some.inj short
    apply BitVec.eq_of_toNat_eq
    have bound := ip.isLt
    have top := congrArg BitVec.toNat high
    simp only [BitVec.extractLsb'_toNat, Nat.shiftRight_eq_div_pow] at top
    simp only [mapped, BitVec.toNat_append, BitVec.extractLsb'_toNat, Nat.shiftRight_eq_div_pow]
    rw [← Nat.shiftLeft_add_eq_or_of_lt (by omega), Nat.shiftLeft_eq]
    omega
  · exact absurd short (by simp)

private theorem parse_String (ip : IP) : ParseIP (IP.String ip) = some ip := by
  unfold IP.String
  split
  · next v4 short => rw [parse_IPv4_String, mapped_of_To4 short]
  · have small := groups_lt ip
    have sep := find_separator (.inr rfl) (appendTo6_chars _ small) (appendTo6_colon _ rfl)
    rw [ParseIP, String.toList_ofList, sep]
    exact parse_appendTo6 ip

theorem String_injective : Function.Injective IP.String := by
  intro a b same
  have parsed := parse_String a
  rw [same, parse_String b] at parsed
  exact (Option.some.inj parsed).symm

theorem slash_not_mem_String (ip : IP) : '/' ∉ (IP.String ip).toList := by
  intro member
  unfold IP.String at member
  split at member
  · rw [IPv4.String, String.toList_ofList] at member
    rcases dotted_chars _ _ member with hex | dot
    · exact absurd hex (by decide)
    · exact absurd dot (by decide)
  · rw [String.toList_ofList] at member
    rcases appendTo6_chars _ (groups_lt ip) _ member with hex | colon
    · exact absurd hex (by decide)
    · exact absurd colon (by decide)

private theorem normalizeIP_eq (ip : String) :
    normalizeIP ip = ((ParseIP ip).map IP.String).getD ip := by
  unfold normalizeIP
  split
  · next none_parsed => rw [none_parsed]; rfl
  · next parsed found =>
    rw [found]
    split
    · next v4 short => simp [IP.String, short]
    · rfl

theorem normalizeIP_idem (ip : String) : normalizeIP (normalizeIP ip) = normalizeIP ip := by
  rw [normalizeIP_eq ip]
  cases found : ParseIP ip with
  | none =>
      rw [Option.map_none, Option.getD_none, normalizeIP_eq, found]
      rfl
  | some parsed =>
      rw [Option.map_some, Option.getD_some, normalizeIP_eq, parse_String]
      rfl

def SameAddress (a b : String) : Prop := ∃ ip, ParseIP a = some ip ∧ ParseIP b = some ip

/-- Only spellings of one address have the same canonical spelling; a string that is no
address shares it with no other string. -/
theorem normalizeIP_eq_iff (a b : String) :
    normalizeIP a = normalizeIP b ↔ a = b ∨ SameAddress a b := by
  constructor
  · intro same
    rw [normalizeIP_eq, normalizeIP_eq] at same
    cases parsedA : ParseIP a with
    | none =>
        rw [parsedA, Option.map_none, Option.getD_none] at same
        cases parsedB : ParseIP b with
        | none =>
            rw [parsedB] at same
            exact Or.inl same
        | some ip =>
            rw [parsedB, Option.map_some, Option.getD_some] at same
            exact absurd (parsedA.symm.trans (same ▸ parse_String ip)) (by simp)
    | some ip =>
        rw [parsedA, Option.map_some, Option.getD_some] at same
        cases parsedB : ParseIP b with
        | none =>
            rw [parsedB, Option.map_none, Option.getD_none] at same
            exact absurd (parsedB.symm.trans (same ▸ parse_String ip)) (by simp)
        | some ip' =>
            rw [parsedB, Option.map_some, Option.getD_some] at same
            obtain rfl := String_injective same
            exact Or.inr ⟨ip, parsedA, parsedB⟩
  · rintro (rfl | ⟨ip, parsedA, parsedB⟩)
    · rfl
    · rw [normalizeIP_eq, normalizeIP_eq, parsedA, parsedB]
      rfl

end L3Firewall.Net.RoundTrip
