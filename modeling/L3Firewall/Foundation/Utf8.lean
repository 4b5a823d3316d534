/- Foundation/Utf8
   digest: Byte strings as characters and bytes that belong to none. -/

import Mathlib.Data.List.Basic

set_option autoImplicit false
set_option relaxedAutoImplicit false

namespace L3Firewall.Foundation.Utf8

abbrev Bytes := List UInt8

/-- The character whose encoding stands at the front. -/
def lead (s : Bytes) : Option Char := s.toByteArray.utf8DecodeChar? 0

variable {s : Bytes} {c : Char}

theorem lead_encode (c : Char) (rest : Bytes) :
    lead (String.utf8EncodeChar c ++ rest) = some c := by
  rw [lead, List.toByteArray_append]
  exact ByteArray.utf8DecodeChar?_utf8EncodeChar_append

theorem lead_some (found : lead s = some c) : ∃ rest, s = String.utf8EncodeChar c ++ rest := by
  obtain ⟨rest, split⟩ := ByteArray.exists_of_utf8DecodeChar?_eq_some found
  refine ⟨rest.data.toList, ?_⟩
  have lists := congrArg (fun b : ByteArray => b.data.toList) split
  simpa using lists

/-- A character, or a byte that begins none. -/
inductive Piece
  | char (c : Char)
  | bad (b : UInt8)
  deriving DecidableEq

/-- A byte string, read from the front: a byte that begins no character is passed alone. -/
def pieces : Bytes → List Piece
  | [] => []
  | b :: s =>
      match lead (b :: s) with
      | some c => .char c :: pieces ((b :: s).drop c.utf8Size)
      | none => .bad b :: pieces s
termination_by s => s.length
decreasing_by
  · have some_byte := c.utf8Size_pos
    rw [List.length_drop, List.length_cons]
    omega
  · exact Nat.lt_succ_self _

@[simp] theorem pieces_nil : pieces [] = [] := by rw [pieces]

theorem pieces_char (c : Char) (rest : Bytes) :
    pieces (String.utf8EncodeChar c ++ rest) = .char c :: pieces rest := by
  have found := lead_encode c rest
  have dropped : (String.utf8EncodeChar c ++ rest).drop c.utf8Size = rest := by
    rw [← String.length_utf8EncodeChar, List.drop_left]
  cases whole : String.utf8EncodeChar c ++ rest with
  | nil => exact absurd (List.append_eq_nil_iff.mp whole).1 String.utf8EncodeChar_ne_nil
  | cons b s =>
      rw [whole] at found dropped
      rw [pieces, found]
      dsimp only
      rw [dropped]

theorem pieces_bad {b : UInt8} (none : lead (b :: s) = none) :
    pieces (b :: s) = .bad b :: pieces s := by
  rw [pieces, none]

theorem induct {holds : Bytes → Prop} (nil : holds [])
    (char : ∀ c rest, holds rest → holds (String.utf8EncodeChar c ++ rest))
    (bad : ∀ b s, lead (b :: s) = none → holds s → holds (b :: s)) (s : Bytes) : holds s := by
  induction length : s.length using Nat.strongRecOn generalizing s with
  | _ n ih =>
      subst length
      cases s with
      | nil => exact nil
      | cons b s =>
          cases found : lead (b :: s) with
          | none => exact bad b s found (ih s.length (Nat.lt_succ_self _) s rfl)
          | some c =>
              obtain ⟨rest, split⟩ := lead_some found
              rw [split]
              apply char
              refine ih rest.length ?_ rest rfl
              have some_byte := c.utf8Size_pos
              rw [split, List.length_append, String.length_utf8EncodeChar]
              omega

def encode (cs : List Char) : Bytes := cs.flatMap String.utf8EncodeChar

def Valid (s : Bytes) : Prop := ∃ cs, s = encode cs

def replacement : Char := Char.ofNat 0xFFFD

def Piece.shown : Piece → Char
  | .char c => c
  | .bad _ => replacement

/-- Every byte that begins no character is replaced by U+FFFD. -/
def sanitize (s : Bytes) : Bytes := encode ((pieces s).map Piece.shown)

theorem pieces_encode (cs : List Char) : pieces (encode cs) = cs.map .char := by
  induction cs with
  | nil => exact pieces_nil
  | cons c cs ih =>
      show pieces (String.utf8EncodeChar c ++ encode cs) = _
      rw [pieces_char, ih, List.map_cons]

theorem encode_injective {cs cs' : List Char} (same : encode cs = encode cs') : cs = cs' := by
  have parts := congrArg pieces same
  rw [pieces_encode, pieces_encode] at parts
  exact List.map_injective_iff.mpr (fun _ _ => Piece.char.inj) parts

theorem sanitize_valid (s : Bytes) : Valid (sanitize s) := ⟨_, rfl⟩

theorem sanitize_encode (cs : List Char) : sanitize (encode cs) = encode cs := by
  rw [sanitize, pieces_encode, List.map_map]
  exact congrArg encode (List.map_id cs)

theorem sanitize_eq_iff : sanitize s = s ↔ Valid s := by
  constructor
  · intro same
    rw [← same]
    exact sanitize_valid s
  · rintro ⟨cs, rfl⟩
    exact sanitize_encode cs

theorem valid_append_iff (cs : List Char) : Valid (encode cs ++ s) ↔ Valid s := by
  constructor
  · induction cs with
    | nil => exact id
    | cons c cs ih =>
        intro valid
        have same := sanitize_eq_iff.mpr valid
        have text : encode (c :: cs) ++ s = String.utf8EncodeChar c ++ (encode cs ++ s) :=
          List.append_assoc _ _ _
        rw [text, sanitize, pieces_char] at same
        exact ih (sanitize_eq_iff.mp (List.append_cancel_left same))
  · rintro ⟨ds, rfl⟩
    exact ⟨cs ++ ds, List.flatMap_append.symm⟩

instance (s : Bytes) : Decidable (Valid s) := decidable_of_iff (sanitize s = s) sanitize_eq_iff

end L3Firewall.Foundation.Utf8
