/- Foundation/JsonText
   digest: JSON strings and numbers, as they are written and as they are read. -/

import L3Firewall.Foundation.Decimal
import L3Firewall.Foundation.Utf8

set_option autoImplicit false
set_option relaxedAutoImplicit false

namespace L3Firewall.Foundation.JsonText

open Decimal (toDigits_first)
open Utf8

def ascii (cs : List Char) : Bytes := cs.map Char.toUInt8

def quoteMark : UInt8 := 0x22

def backslash : UInt8 := 0x5C

def minus : UInt8 := 0x2D

/-! Writing strings. -/

def hexDigit (n : Nat) : UInt8 := (Nat.digitChar n).toUInt8

def hexEscape (n : Nat) : Bytes :=
  ascii ['u'] ++ [hexDigit (n / 4096 % 16), hexDigit (n / 256 % 16), hexDigit (n / 16 % 16),
    hexDigit (n % 16)]

/-- What follows the backslash, for a character that is not written as it is: quotes and
backslashes, control characters, those with a meaning in HTML, and two line separators. -/
def escapeText (c : Char) : Option Bytes :=
  if c = '"' ∨ c = '\\' then some (ascii [c])
  else if c.toNat = 0x08 then some (ascii ['b'])
  else if c.toNat = 0x0C then some (ascii ['f'])
  else if c.toNat = 0x0A then some (ascii ['n'])
  else if c.toNat = 0x0D then some (ascii ['r'])
  else if c.toNat = 0x09 then some (ascii ['t'])
  else if c.toNat < 0x20 ∨ c = '<' ∨ c = '>' ∨ c = '&' ∨ c.toNat = 0x2028 ∨ c.toNat = 0x2029 then
    some (hexEscape c.toNat)
  else none

/-- A byte that begins no character is written as U+FFFD. -/
def quotePiece : Piece → Bytes
  | .char c => (escapeText c).elim (String.utf8EncodeChar c) fun text => backslash :: text
  | .bad _ => backslash :: hexEscape replacement.toNat

def quoted (s : Bytes) : Bytes := (pieces s).flatMap quotePiece

/-! Reading strings. -/

def hexValue (b : UInt8) : Option Nat :=
  if 0x30 ≤ b ∧ b ≤ 0x39 then some (b.toNat - 0x30)
  else if 0x61 ≤ b ∧ b ≤ 0x66 then some (b.toNat - 0x61 + 10)
  else if 0x41 ≤ b ∧ b ≤ 0x46 then some (b.toNat - 0x41 + 10)
  else none

def hex4 : Bytes → Option (Nat × Bytes)
  | a :: b :: c :: d :: s => do
      let a ← hexValue a
      let b ← hexValue b
      let c ← hexValue c
      let d ← hexValue d
      return (((a * 16 + b) * 16 + c) * 16 + d, s)
  | _ => none

/-- A second escape, as the other half of a surrogate pair. -/
def secondHalf : Bytes → Option (Nat × Bytes)
  | a :: b :: s => if a = backslash ∧ b = 'u'.toUInt8 then hex4 s else none
  | _ => none

/-- The character of a hexadecimal escape. Half of a surrogate pair stands for U+FFFD. -/
def unicode (s : Bytes) : Option (Char × Bytes) :=
  match hex4 s with
  | none => none
  | some (r, s) =>
      if 0xD800 ≤ r ∧ r < 0xE000 then
        match secondHalf s with
        | some (r', s') =>
            if r < 0xDC00 ∧ 0xDC00 ≤ r' ∧ r' < 0xE000 then
              some (Char.ofNat (0x10000 + (r - 0xD800) * 0x400 + (r' - 0xDC00)), s')
            else some (replacement, s)
        | none => some (replacement, s)
      else some (Char.ofNat r, s)

def unescape (b : UInt8) : Option Char :=
  if b = quoteMark then some '"'
  else if b = backslash then some '\\'
  else if b = '/'.toUInt8 then some '/'
  else if b = 'b'.toUInt8 then some (Char.ofNat 0x08)
  else if b = 'f'.toUInt8 then some (Char.ofNat 0x0C)
  else if b = 'n'.toUInt8 then some (Char.ofNat 0x0A)
  else if b = 'r'.toUInt8 then some (Char.ofNat 0x0D)
  else if b = 't'.toUInt8 then some (Char.ofNat 0x09)
  else none

def escaped : Bytes → Option (Char × Bytes)
  | [] => none
  | b :: s => if b = 'u'.toUInt8 then unicode s else (unescape b).map fun c => (c, s)

def stringBody : Nat → Bytes → Option (Bytes × Bytes)
  | 0, _ => none
  | _ + 1, [] => none
  | fuel + 1, b :: s =>
      let after (c : Char) (s : Bytes) :=
        (stringBody fuel s).map fun out => (String.utf8EncodeChar c ++ out.1, out.2)
      if b = quoteMark then some ([], s)
      else if b = backslash then (escaped s).bind fun out => after out.1 out.2
      else if b < 0x20 then none
      else
        match lead (b :: s) with
        | some c => after c ((b :: s).drop c.utf8Size)
        | none => after replacement s

variable {c : Char} {t : Bytes} {fuel : Nat}

private theorem hexValue_hexDigit (n : Nat) : hexValue (hexDigit (n % 16)) = some (n % 16) := by
  have table : ∀ d < 16, hexValue (hexDigit d) = some d := by decide
  exact table _ (Nat.mod_lt n (by decide))

private theorem hex4_hexEscape {n : Nat} (small : n < 0x10000) :
    hex4 ((hexEscape n).tail ++ t) = some (n, t) := by
  show hex4 (hexDigit (n / 4096 % 16) :: hexDigit (n / 256 % 16) :: hexDigit (n / 16 % 16) ::
    hexDigit (n % 16) :: t) = _
  rw [hex4]
  simp only [hexValue_hexDigit, Option.pure_def, Option.bind_eq_bind, Option.bind_some,
    Option.some.injEq, Prod.mk.injEq, and_true]
  omega

private theorem escaped_hexEscape (small : c.toNat < 0x10000) :
    escaped (hexEscape c.toNat ++ t) = some (c, t) := by
  have plain : ¬ (0xD800 ≤ c.toNat ∧ c.toNat < 0xE000) := by
    have valid := c.valid
    rcases valid with low | high
    · intro both
      have : c.toNat < 0xD800 := low
      omega
    · intro both
      have : 0xDFFF < c.toNat := high.1
      omega
  show unicode ((hexEscape c.toNat).tail ++ t) = _
  rw [unicode, hex4_hexEscape small]
  dsimp only
  rw [if_neg plain, Char.ofNat_toNat]

private theorem eq_ofNat {n : Nat} (code : c.toNat = n) : c = Char.ofNat n := by
  rw [← code, Char.ofNat_toNat]

theorem escapeText_cases (c : Char) :
    (escapeText c = none ∧ c ≠ '"' ∧ c ≠ '\\' ∧ 0x20 ≤ c.toNat) ∨
    (∃ b, escapeText c = some [b] ∧ b ≠ 'u'.toUInt8 ∧ unescape b = some c) ∨
    (escapeText c = some (hexEscape c.toNat) ∧ c.toNat < 0x10000) := by
  unfold escapeText
  split
  · next mark =>
      refine Or.inr (Or.inl ⟨_, rfl, ?_⟩)
      rcases mark with rfl | rfl
      · exact ⟨by decide, rfl⟩
      · exact ⟨by decide, rfl⟩
  · next marks =>
      iterate 5
        split
        · next code =>
            refine Or.inr (Or.inl ⟨_, rfl, by decide, ?_⟩)
            rw [eq_ofNat code]
            rfl
      split
      · next code =>
          refine Or.inr (Or.inr ⟨rfl, ?_⟩)
          rcases code with low | rfl | rfl | rfl | same | same
          · omega
          · decide
          · decide
          · decide
          · omega
          · omega
      · next others =>
          have large : 0x20 ≤ c.toNat := by omega
          refine Or.inl ⟨rfl, ?_, ?_, large⟩
          · exact fun same => marks (Or.inl same)
          · exact fun same => marks (Or.inr same)

private theorem escaped_escapeText {text : Bytes} (known : escapeText c = some text) :
    escaped (text ++ t) = some (c, t) := by
  rcases escapeText_cases c with ⟨none, -⟩ | ⟨b, letter, other, meaning⟩ | ⟨code, small⟩
  · exact absurd (none.symm.trans known) (by simp)
  · obtain rfl := Option.some.inj (letter.symm.trans known)
    show escaped (b :: t) = _
    rw [escaped, if_neg other, meaning, Option.map_some]
  · obtain rfl := Option.some.inj (code.symm.trans known)
    exact escaped_hexEscape small

private theorem encode_first (c : Char) : ∃ b rest, String.utf8EncodeChar c = b :: rest ∧
    (b.toNat = c.toNat ∨ 0x80 ≤ b.toNat) := by
  have value : c.val.toNat = c.toNat := rfl
  unfold String.utf8EncodeChar
  rw [value]
  dsimp only
  split
  · next one =>
      refine ⟨_, _, rfl, Or.inl ?_⟩
      rw [UInt8.toNat_ofNat']
      omega
  · split
    · next two =>
        refine ⟨_, _, rfl, Or.inr ?_⟩
        rw [UInt8.toNat_ofNat']
        omega
    · split
      · next three =>
          refine ⟨_, _, rfl, Or.inr ?_⟩
          rw [UInt8.toNat_ofNat']
          omega
      · next four =>
          refine ⟨_, _, rfl, Or.inr ?_⟩
          rw [UInt8.toNat_ofNat']
          omega

def Ordinary (b : UInt8) : Prop := b ≠ quoteMark ∧ b ≠ backslash ∧ ¬ b < 0x20

private theorem ordinary_first (plain : escapeText c = none) :
    ∃ b rest, String.utf8EncodeChar c = b :: rest ∧ Ordinary b := by
  obtain ⟨b, rest, text, code⟩ := encode_first c
  have ⟨noQuote, noSlash, large⟩ : c ≠ '"' ∧ c ≠ '\\' ∧ 0x20 ≤ c.toNat := by
    rcases escapeText_cases c with ⟨-, facts⟩ | ⟨b, letter, -⟩ | ⟨code, -⟩
    · exact facts
    · exact absurd (letter.symm.trans plain) (by simp)
    · exact absurd (code.symm.trans plain) (by simp)
  refine ⟨b, rest, text, ?_, ?_, ?_⟩
  · intro same
    subst same
    rcases code with same | high
    · exact noQuote (eq_ofNat same.symm)
    · exact absurd high (by decide)
  · intro same
    subst same
    rcases code with same | high
    · exact noSlash (eq_ofNat same.symm)
    · exact absurd high (by decide)
  · intro low
    have : b.toNat < 0x20 := UInt8.lt_iff_toNat_lt.mp low
    omega

private theorem stringBody_quotePiece (p : Piece) : stringBody (fuel + 1) (quotePiece p ++ t) =
    (stringBody fuel t).map fun out => (String.utf8EncodeChar p.shown ++ out.1, out.2) := by
  have escape (c : Char) (text : Bytes) (read : escaped (text ++ t) = some (c, t)) :
      stringBody (fuel + 1) (backslash :: text ++ t) =
        (stringBody fuel t).map fun out => (String.utf8EncodeChar c ++ out.1, out.2) := by
    rw [List.cons_append, stringBody, if_neg (by decide), if_pos rfl, read, Option.bind_some]
  cases p with
  | bad b =>
      have small : replacement.toNat < 0x10000 := by decide
      exact escape replacement _ (escaped_hexEscape small)
  | char c =>
      cases known : escapeText c with
      | some text =>
          rw [quotePiece, known]
          exact escape c text (escaped_escapeText known)
      | none =>
          obtain ⟨b, rest, text, noQuote, noSlash, large⟩ := ordinary_first known
          have found := lead_encode c t
          have dropped : (String.utf8EncodeChar c ++ t).drop c.utf8Size = t := by
            rw [← String.length_utf8EncodeChar, List.drop_left]
          rw [quotePiece, known, Option.elim_none]
          rw [text, List.cons_append] at found dropped ⊢
          rw [stringBody, if_neg noQuote, if_neg noSlash, if_neg large, found]
          dsimp only
          rw [dropped]
          rfl

private theorem stringBody_pieces (ps : List Piece) (enough : ps.length < fuel) :
    stringBody fuel (ps.flatMap quotePiece ++ quoteMark :: t) =
      some (encode (ps.map Piece.shown), t) := by
  induction ps generalizing fuel with
  | nil =>
      obtain ⟨fuel, rfl⟩ : ∃ n, fuel = n + 1 := ⟨fuel - 1, by simp at enough; omega⟩
      rfl
  | cons p ps ih =>
      obtain ⟨fuel, rfl⟩ : ∃ n, fuel = n + 1 := ⟨fuel - 1, by simp at enough; omega⟩
      have fewer : ps.length < fuel := by simpa using enough
      rw [List.flatMap_cons, List.append_assoc, stringBody_quotePiece, ih fewer]
      rfl

private theorem length_le_quoted (ps : List Piece) :
    ps.length ≤ (ps.flatMap quotePiece).length := by
  have some_byte (p : Piece) : 0 < (quotePiece p).length := by
    cases p with
    | bad b => exact Nat.succ_pos _
    | char c =>
        rw [quotePiece]
        cases escapeText c with
        | none => exact List.length_pos_iff.mpr String.utf8EncodeChar_ne_nil
        | some text => exact Nat.succ_pos _
  induction ps with
  | nil => exact Nat.le_refl 0
  | cons p ps ih =>
      have first := some_byte p
      rw [List.flatMap_cons, List.length_append, List.length_cons]
      omega

theorem stringBody_quoted {s : Bytes} (enough : (quoted s).length < fuel) :
    stringBody fuel (quoted s ++ quoteMark :: t) = some (sanitize s, t) :=
  stringBody_pieces (pieces s) (Nat.lt_of_le_of_lt (length_le_quoted _) enough)

private theorem length_escapeText_le {text : Bytes} (known : escapeText c = some text) :
    text.length ≤ 5 := by
  rcases escapeText_cases c with ⟨none, -⟩ | ⟨b, letter, -⟩ | ⟨code, -⟩
  · exact absurd (none.symm.trans known) (by simp)
  · obtain rfl := Option.some.inj (letter.symm.trans known)
    exact Nat.succ_le_succ (Nat.zero_le 4)
  · obtain rfl := Option.some.inj (code.symm.trans known)
    exact Nat.le_refl 5

theorem length_quoted_le (s : Bytes) : (quoted s).length ≤ 6 * s.length := by
  induction s using induct with
  | nil => exact Nat.le_of_eq (congrArg (fun ps => (ps.flatMap quotePiece).length) pieces_nil)
  | char c rest ih =>
      have some_byte := c.utf8Size_pos
      have short : (quotePiece (.char c)).length ≤ 6 * c.utf8Size := by
        cases known : escapeText c with
        | none =>
            rw [quotePiece, known, Option.elim_none, String.length_utf8EncodeChar]
            omega
        | some text =>
            have few := length_escapeText_le known
            rw [quotePiece, known, Option.elim_some, List.length_cons]
            omega
      rw [quoted] at ih ⊢
      rw [pieces_char, List.flatMap_cons, List.length_append, List.length_append,
        String.length_utf8EncodeChar]
      omega
  | bad b s none ih =>
      have short : (quotePiece (.bad b)).length = 6 := rfl
      rw [quoted] at ih ⊢
      rw [pieces_bad none, List.flatMap_cons, List.length_append, List.length_cons]
      omega

/-! Numbers. -/

def digits (n : Nat) : Bytes := ascii (Nat.toDigits 10 n)

def decimal (n : Int) : Bytes := if n < 0 then minus :: digits n.natAbs else digits n.natAbs

def isDigit (b : UInt8) : Bool := 0x30 ≤ b && b ≤ 0x39

def someDigits (s : Bytes) : Option (Bytes × Bytes) :=
  if s.takeWhile isDigit = [] then none else some (s.takeWhile isDigit, s.dropWhile isDigit)

/-- The whole part of a number. Nothing but the part itself begins with zero. -/
def integral : Bytes → Option (Bytes × Bytes)
  | [] => none
  | b :: s =>
      if b = '0'.toUInt8 then some ([b], s)
      else if isDigit b then some (b :: s.takeWhile isDigit, s.dropWhile isDigit)
      else none

def fraction : Bytes → Option (Bytes × Bytes)
  | [] => some ([], [])
  | b :: s =>
      if b = '.'.toUInt8 then (someDigits s).map fun out => (b :: out.1, out.2)
      else some ([], b :: s)

def exponent : Bytes → Option (Bytes × Bytes)
  | [] => some ([], [])
  | b :: s =>
      if b = 'e'.toUInt8 ∨ b = 'E'.toUInt8 then
        let signed := s.head? = some minus ∨ s.head? = some '+'.toUInt8
        let sign := s.take (if signed then 1 else 0)
        (someDigits (s.drop sign.length)).map fun out => (b :: sign ++ out.1, out.2)
      else some ([], b :: s)

def sign (s : Bytes) : Bytes := if s.head? = some minus then [minus] else []

def number (s : Bytes) : Option (Bytes × Bytes) :=
  match integral (s.drop (sign s).length) with
  | none => none
  | some (whole, rest) =>
      match fraction rest with
      | none => none
      | some (part, rest) =>
          (exponent rest).map fun out => (sign s ++ whole ++ part ++ out.1, out.2)

def natValue (ds : Bytes) : Nat := ds.foldl (fun sofar b => 10 * sofar + (b.toNat - 0x30)) 0

/-- The value of a number that is written without fraction and exponent. -/
def intValue (text : Bytes) : Option Int :=
  let ds := text.drop (sign text).length
  if ds ≠ [] ∧ ds.all isDigit then some (if sign text = [] then natValue ds else - natValue ds)
  else none

def Stop (b : UInt8) : Prop :=
  isDigit b = false ∧ b ≠ '.'.toUInt8 ∧ b ≠ 'e'.toUInt8 ∧ b ≠ 'E'.toUInt8

instance (b : UInt8) : Decidable (Stop b) := inferInstanceAs (Decidable (_ ∧ _ ∧ _ ∧ _))

section Numbers

variable {cs : List Char} {n : Nat} {b : UInt8}

private theorem digit_range (digit : c.isDigit) : 0x30 ≤ c.toNat ∧ c.toNat ≤ 0x39 := by
  obtain ⟨low, high⟩ := Bool.and_eq_true_iff.mp digit
  exact ⟨UInt32.le_iff_toNat_le.mp (of_decide_eq_true low),
    UInt32.le_iff_toNat_le.mp (of_decide_eq_true high)⟩

private theorem toNat_of_digit (digit : c.isDigit) : c.toUInt8.toNat = c.toNat := by
  have range := digit_range digit
  have wrapped : c.toUInt8.toNat = c.toNat % 256 := rfl
  rw [wrapped]
  omega

private theorem isDigit_of_digit (digit : c.isDigit) : isDigit c.toUInt8 = true := by
  have range := digit_range digit
  have code := toNat_of_digit digit
  apply Bool.and_eq_true_iff.mpr
  constructor
  · apply decide_eq_true
    exact UInt8.le_iff_toNat_le.mpr (by rw [code]; exact range.1)
  · apply decide_eq_true
    exact UInt8.le_iff_toNat_le.mpr (by rw [code]; exact range.2)

theorem digit_of_mem_digits (member : b ∈ digits n) : isDigit b = true := by
  obtain ⟨c, found, rfl⟩ := List.mem_map.mp member
  exact isDigit_of_digit (Nat.isDigit_of_mem_toDigits (by decide) (by decide) found)

private theorem natValue_digits (n : Nat) : natValue (digits n) = n := by
  have same : natValue (digits n) = Nat.ofDigitChars 10 (Nat.toDigits 10 n) 0 := by
    rw [natValue, digits, ascii, List.foldl_map, Nat.ofDigitChars]
    apply List.foldl_ext
    intro sofar c member
    have digit := Nat.isDigit_of_mem_toDigits (by decide) (by decide) member
    rw [toNat_of_digit digit]
    rfl
  rw [same, Nat.ofDigitChars_ten_toDigits]

private theorem integral_digits (stop : Stop b) :
    integral (digits n ++ b :: t) = some (digits n, b :: t) := by
  obtain ⟨d, cs, text, alone⟩ := toDigits_first n
  have written : digits n = d.toUInt8 :: ascii cs := congrArg ascii text
  have digit : ∀ b ∈ ascii cs, isDigit b = true := by
    intro b member
    apply @digit_of_mem_digits n
    rw [written]
    exact List.mem_cons_of_mem _ member
  have first : isDigit d.toUInt8 = true := by
    apply @digit_of_mem_digits n
    rw [written]
    exact List.mem_cons_self
  rw [written, List.cons_append, integral]
  split
  · next zero =>
      have same : d = '0' := by
        have member : d ∈ Nat.toDigits 10 n := by
          rw [text]
          exact List.mem_cons_self
        have code := toNat_of_digit (Nat.isDigit_of_mem_toDigits (by decide) (by decide) member)
        rw [zero] at code
        exact eq_ofNat code.symm
      rw [alone same]
      rfl
  · rw [List.takeWhile_append_of_pos digit, List.dropWhile_append_of_pos digit,
      List.takeWhile_cons_of_neg (by simp [stop.1]), List.dropWhile_cons_of_neg (by simp [stop.1]),
      List.append_nil]

theorem digits_ne_nil (n : Nat) : digits n ≠ [] := by
  obtain ⟨d, cs, text, -⟩ := toDigits_first n
  rw [digits, text]
  exact List.cons_ne_nil _ _

private theorem sign_digits (n : Nat) (t : Bytes) : sign (digits n ++ t) = [] := by
  apply if_neg
  intro signed
  cases written : digits n with
  | nil => exact digits_ne_nil n written
  | cons b rest =>
      rw [written] at signed
      have digit : isDigit b = true := by
        apply @digit_of_mem_digits n
        rw [written]
        exact List.mem_cons_self
      rw [Option.some.inj signed] at digit
      exact absurd digit (by decide)

private theorem sign_minus (t : Bytes) : sign (minus :: t) = [minus] := rfl

private theorem number_of_integral {s whole : Bytes} (stop : Stop b)
    (read : integral (s.drop (sign s).length) = some (whole, b :: t)) :
    number s = some (sign s ++ whole, b :: t) := by
  have noFraction : fraction (b :: t) = some ([], b :: t) := if_neg stop.2.1
  have noExponent : exponent (b :: t) = some ([], b :: t) :=
    if_neg fun power => power.elim stop.2.2.1 stop.2.2.2
  rw [number, read]
  dsimp only
  rw [noFraction]
  dsimp only
  rw [noExponent, Option.map_some, List.append_nil, List.append_nil]

theorem number_decimal (n : Int) (stop : Stop b) :
    number (decimal n ++ b :: t) = some (decimal n, b :: t) := by
  have body := @integral_digits t n.natAbs b stop
  unfold decimal
  split
  · apply number_of_integral stop
    rw [List.cons_append, sign_minus]
    exact body
  · have unsigned := sign_digits n.natAbs (b :: t)
    have whole := @number_of_integral t b (digits n.natAbs ++ b :: t) (digits n.natAbs) stop
    rw [unsigned] at whole
    exact whole body

theorem intValue_decimal (n : Int) : intValue (decimal n) = some n := by
  have all : (digits n.natAbs).all isDigit = true :=
    List.all_eq_true.mpr fun b member => digit_of_mem_digits member
  have unsigned := sign_digits n.natAbs []
  rw [List.append_nil] at unsigned
  unfold decimal
  split
  · next negative =>
      rw [intValue, sign_minus, List.length_singleton, List.drop_one, List.tail_cons,
        if_pos ⟨digits_ne_nil _, all⟩, if_neg (List.cons_ne_nil _ _), natValue_digits]
      congr 1
      omega
  · next positive =>
      rw [intValue, unsigned, List.length_nil, List.drop_zero,
        if_pos ⟨digits_ne_nil _, all⟩, if_pos rfl, natValue_digits]
      congr 1
      omega

theorem length_decimal_le {n : Int} {width : Nat} (wide : 0 < width)
    (small : n.natAbs < 10 ^ width) : (decimal n).length ≤ width + 1 := by
  have short : (digits n.natAbs).length ≤ width := by
    rw [digits, ascii, List.length_map]
    exact (Nat.length_toDigits_le_iff (by decide) wide).mpr small
  unfold decimal
  split
  · rw [List.length_cons]
    omega
  · omega

end Numbers

end L3Firewall.Foundation.JsonText
