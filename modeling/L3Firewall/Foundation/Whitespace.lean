/- Foundation/Whitespace
   digest: White space of Unicode, and byte strings without it at their ends. -/

import L3Firewall.Foundation.Utf8
import Mathlib.Data.List.DropRight

set_option autoImplicit false
set_option relaxedAutoImplicit false

namespace L3Firewall.Foundation.Whitespace

open Utf8

def IsSpace (c : Char) : Bool :=
  let n := c.toNat
  (0x09 ≤ n && n ≤ 0x0D) || n = 0x20 || n = 0x85 || n = 0xA0 || n = 0x1680 ||
    (0x2000 ≤ n && n ≤ 0x200A) || n = 0x2028 || n = 0x2029 || n = 0x202F || n = 0x205F ||
    n = 0x3000

/-- A byte that begins no character is no space. -/
def blank : Piece → Bool
  | .char c => IsSpace c
  | .bad _ => false

def bytes : Piece → Bytes
  | .char c => String.utf8EncodeChar c
  | .bad b => [b]

def TrimSpace (s : Bytes) : Bytes := (((pieces s).dropWhile blank).rdropWhile blank).flatMap bytes

private theorem high_of_large {c : Char} (large : ¬ c.val.toNat ≤ 0x7f) {b : UInt8}
    (inside : b ∈ String.utf8EncodeChar c) : 0x80 ≤ b.toNat := by
  unfold String.utf8EncodeChar at inside
  dsimp only at inside
  rw [if_neg large] at inside
  split at inside
  · simp only [List.mem_cons, List.not_mem_nil, or_false] at inside
    rcases inside with rfl | rfl
    all_goals
      rw [UInt8.toNat_ofNat']
      omega
  · split at inside
    · simp only [List.mem_cons, List.not_mem_nil, or_false] at inside
      rcases inside with rfl | rfl | rfl
      all_goals
        rw [UInt8.toNat_ofNat']
        omega
    · simp only [List.mem_cons, List.not_mem_nil, or_false] at inside
      rcases inside with rfl | rfl | rfl | rfl
      all_goals
        rw [UInt8.toNat_ofNat']
        omega

private theorem encode_of_ascii {c : Char} {b : UInt8} (inside : b ∈ String.utf8EncodeChar c)
    (small : b.toNat < 0x80) : String.utf8EncodeChar c = [b] := by
  by_cases one : c.val.toNat ≤ 0x7f
  · have single : String.utf8EncodeChar c = [UInt8.ofNat c.val.toNat] := by
      unfold String.utf8EncodeChar
      exact if_pos one
    rw [single] at inside ⊢
    rw [List.mem_singleton.mp inside]
  · exact absurd (high_of_large one inside) (by omega)

private theorem pieces_snoc {c : Char} {b : UInt8} (code : String.utf8EncodeChar c = [b])
    (small : b.toNat < 0x80) (s : Bytes) : pieces (s ++ [b]) = pieces s ++ [.char c] := by
  have single : pieces [b] = [.char c] := by
    have read := pieces_char c []
    rw [code] at read
    rw [pieces_nil] at read
    exact read
  induction s using induct with
  | nil => rw [List.nil_append, single, pieces_nil, List.nil_append]
  | char d rest ih =>
      rw [List.append_assoc, pieces_char, ih, pieces_char]
      rfl
  | bad e s unread ih =>
      have still : lead (e :: (s ++ [b])) = none := by
        cases found : lead (e :: (s ++ [b])) with
        | none => rfl
        | some d =>
            obtain ⟨rest, split⟩ := lead_some found
            rcases List.eq_nil_or_concat rest with rfl | ⟨rest, x, rfl⟩
            · rw [List.append_nil] at split
              have inside : b ∈ String.utf8EncodeChar d := split ▸ by simp
              have size := congrArg List.length (split.trans (encode_of_ascii inside small))
              simp at size
            · have front : e :: s ++ [b] = String.utf8EncodeChar d ++ rest ++ [x] := by
                rw [List.concat_eq_append] at split
                rw [List.append_assoc]
                exact split
              have same := (List.append_inj' front rfl).1
              rw [same, lead_encode] at unread
              exact absurd unread (by simp)
      rw [List.cons_append, pieces_bad still, ih, pieces_bad unread]
      rfl

theorem TrimSpace_snoc {c : Char} {b : UInt8} (code : String.utf8EncodeChar c = [b])
    (small : b.toNat < 0x80) (space : IsSpace c = true) (s : Bytes) :
    TrimSpace (s ++ [b]) = TrimSpace s := by
  unfold TrimSpace
  rw [pieces_snoc code small, List.dropWhile_append]
  split
  · next nothing =>
    rw [List.isEmpty_iff.mp nothing]
    simp [blank, space]
  · have last : blank (.char c) = true := space
    rw [List.rdropWhile_concat_pos _ _ _ last]

theorem TrimSpace_spaces (s : Bytes) (n : Nat) :
    TrimSpace (s ++ List.replicate n 0x20) = TrimSpace s := by
  induction n with
  | zero => rw [List.replicate_zero, List.append_nil]
  | succ n ih =>
      rw [List.replicate_succ', ← List.append_assoc,
        @TrimSpace_snoc ' ' 0x20 (by decide) (by decide) (by decide), ih]

theorem TrimSpace_encode (cs : List Char) :
    TrimSpace (encode cs) = encode ((cs.dropWhile IsSpace).rdropWhile IsSpace) := by
  have same : blank ∘ Piece.char = IsSpace := rfl
  rw [TrimSpace, pieces_encode, List.dropWhile_map, List.rdropWhile, ← List.map_reverse,
    List.dropWhile_map, ← List.map_reverse, same, List.flatMap_map]
  rfl

end L3Firewall.Foundation.Whitespace
