/- Foundation/Json
   digest: JSON values as they are read, and that objects are read as they were written. -/

import L3Firewall.Foundation.JsonText

set_option autoImplicit false
set_option relaxedAutoImplicit false

namespace L3Firewall.Foundation.Json

open Utf8
open JsonText

/-- A value, with numbers as their text and members in the order of the text. -/
inductive Value
  | null
  | bool (b : Bool)
  | number (text : Bytes)
  | string (s : Bytes)
  | array (items : List Value)
  | object (members : List (Bytes × Value))

def comma : UInt8 := 0x2C

def colon : UInt8 := 0x3A

def openBrace : UInt8 := 0x7B

def closeBrace : UInt8 := 0x7D

def openBracket : UInt8 := 0x5B

def closeBracket : UInt8 := 0x5D

/-! Reading. -/

def isSpace (b : UInt8) : Bool := b = 0x20 || b = 0x09 || b = 0x0A || b = 0x0D

def skipSpace (s : Bytes) : Bytes := s.dropWhile isSpace

def word (text : List Char) (v : Value) (s : Bytes) : Option (Value × Bytes) :=
  if ascii text <+: s then some (v, s.drop text.length) else none

def scalar (s : Bytes) : Option (Value × Bytes) :=
  if s.head? = some quoteMark then
    (stringBody s.length s.tail).map fun out => (.string out.1, out.2)
  else
    (word ['n', 'u', 'l', 'l'] .null s).or <|
      (word ['t', 'r', 'u', 'e'] (.bool true) s).or <|
        (word ['f', 'a', 'l', 's', 'e'] (.bool false) s).or <|
          (number s).map fun out => (.number out.1, out.2)

section Listing

variable {α : Type} (item : Bytes → Option (α × Bytes)) (close : UInt8)

/-- Items with commas between them, up to the closing byte. -/
def items : Nat → Bytes → Option (List α × Bytes)
  | 0, _ => none
  | fuel + 1, s =>
      match item s with
      | none => none
      | some (a, s) =>
          match skipSpace s with
          | [] => none
          | b :: s =>
              if b = comma then (items fuel s).map fun out => (a :: out.1, out.2)
              else if b = close then some ([a], s)
              else none

def listing (s : Bytes) : Option (List α × Bytes) :=
  if (skipSpace s).head? = some close then some ([], (skipSpace s).tail)
  else items item close s.length s

end Listing

def member (val : Bytes → Option (Value × Bytes)) (s : Bytes) :
    Option ((Bytes × Value) × Bytes) :=
  let s := skipSpace s
  if s.head? = some quoteMark then
    match stringBody s.length s.tail with
    | none => none
    | some (key, s) =>
        let s := skipSpace s
        if s.head? = some colon then (val s.tail).map fun out => ((key, out.1), out.2) else none
  else none

/-- A value at the front, with a limit on the depth of arrays and objects. -/
def value : Nat → Bytes → Option (Value × Bytes)
  | 0, s => scalar (skipSpace s)
  | depth + 1, s =>
      let s := skipSpace s
      if s.head? = some openBrace then
        (listing (member (value depth)) closeBrace s.tail).map fun out => (.object out.1, out.2)
      else if s.head? = some openBracket then
        (listing (value depth) closeBracket s.tail).map fun out => (.array out.1, out.2)
      else scalar s

/-! Writing. -/

def writeString (s : Bytes) : Bytes := quoteMark :: (quoted s ++ [quoteMark])

def writeMember (m : Bytes × Bytes) : Bytes := writeString m.1 ++ colon :: m.2

def joined (texts : List Bytes) : Bytes := List.intercalate [comma] texts

/-- An object, from its keys and the texts of their values. -/
def writeObject (ms : List (Bytes × Bytes)) : Bytes :=
  openBrace :: (joined (ms.map writeMember) ++ [closeBrace])

variable {t : Bytes} {b : UInt8}

theorem skipSpace_cons (solid : isSpace b = false) : skipSpace (b :: t) = b :: t :=
  List.dropWhile_cons_of_neg (by simp [solid])

/-! Numbers. -/

private theorem decimal_first (n : Int) :
    ∃ b rest, decimal n = b :: rest ∧ (b = minus ∨ isDigit b = true) := by
  unfold decimal
  split
  · exact ⟨_, _, rfl, Or.inl rfl⟩
  · cases written : digits n.natAbs with
    | nil => exact absurd written (digits_ne_nil _)
    | cons b rest =>
        refine ⟨b, rest, rfl, Or.inr ?_⟩
        apply @digit_of_mem_digits n.natAbs
        rw [written]
        exact List.mem_cons_self

/-- A byte that is no space and begins no value but a number. -/
def Numeric (b : UInt8) : Prop :=
  isSpace b = false ∧ b ≠ openBrace ∧ b ≠ openBracket ∧ b ≠ quoteMark ∧ b ≠ 'n'.toUInt8 ∧
    b ≠ 't'.toUInt8 ∧ b ≠ 'f'.toUInt8

private theorem numeric_of_first (first : b = minus ∨ isDigit b = true) : Numeric b := by
  have differs (x : UInt8) (other : x ≠ minus ∧ isDigit x = false) : b ≠ x := by
    rintro rfl
    rcases first with same | digit
    · exact other.1 same
    · exact absurd (other.2.symm.trans digit) (by decide)
  refine ⟨?_, differs _ ?_, differs _ ?_, differs _ ?_, differs _ ?_, differs _ ?_, differs _ ?_⟩
  · have spaces : b ≠ 0x20 ∧ b ≠ 0x09 ∧ b ≠ 0x0A ∧ b ≠ 0x0D := by
      refine ⟨differs _ ?_, differs _ ?_, differs _ ?_, differs _ ?_⟩ <;> decide
    simp [isSpace, spaces]
  all_goals decide

theorem word_other {text : List Char} {c : Char} {v : Value} (other : b ≠ c.toUInt8) :
    word (c :: text) v (b :: t) = none := by
  apply if_neg
  intro front
  exact other (List.cons_prefix_cons.mp front).1.symm

theorem value_decimal (depth : Nat) (n : Int) (stop : Stop b) :
    value depth (decimal n ++ b :: t) = some (.number (decimal n), b :: t) := by
  have read := @number_decimal t b n stop
  obtain ⟨first, rest, written, start⟩ := decimal_first n
  obtain ⟨solid, brace, bracket, quote, noNull, noTrue, noFalse⟩ := numeric_of_first start
  rw [written, List.cons_append] at read ⊢
  have plain : scalar (first :: (rest ++ b :: t)) = some (.number (first :: rest), b :: t) := by
    rw [scalar, List.head?_cons, if_neg (fun same => quote (Option.some.inj same)),
      word_other noNull, word_other noTrue, word_other noFalse, read]
    rfl
  cases depth with
  | zero => rw [value, skipSpace_cons solid, plain]
  | succ depth =>
      rw [value, skipSpace_cons solid, List.head?_cons,
        if_neg (fun same => brace (Option.some.inj same)),
        if_neg (fun same => bracket (Option.some.inj same)), plain]

/-! Objects. -/

private theorem member_written {val : Bytes → Option (Value × Bytes)} {m : Bytes × Bytes}
    {v : Value}
    (read : val (m.2 ++ t) = some (v, t)) :
    member val (writeMember m ++ t) = some ((sanitize m.1, v), t) := by
  have text : writeMember m ++ t =
      quoteMark :: (quoted m.1 ++ quoteMark :: (colon :: (m.2 ++ t))) := by
    simp [writeMember, writeString]
  have enough : (quoted m.1).length < (writeMember m ++ t).length := by
    rw [text, List.length_cons, List.length_append]
    omega
  rw [text] at enough ⊢
  rw [member, skipSpace_cons (by decide), List.head?_cons, if_pos rfl, List.tail_cons,
    stringBody_quoted enough]
  dsimp only
  rw [skipSpace_cons (by decide), List.head?_cons, if_pos rfl, List.tail_cons, read]
  rfl

section Listing

variable {α : Type} {item : Bytes → Option (α × Bytes)} {close : UInt8} {fuel : Nat}

theorem joined_cons (x : Bytes) {xs : List Bytes} (more : xs ≠ []) :
    joined (x :: xs) = x ++ comma :: joined xs := by
  cases xs with
  | nil => exact absurd rfl more
  | cons y ys =>
      show List.intercalate [comma] (x :: y :: ys) = _
      rw [List.intercalate_cons_cons, List.append_assoc]
      rfl

private theorem joined_front (x : Bytes) (xs : List Bytes) :
    ∃ rest, joined (x :: xs) = x ++ rest := by
  by_cases last : xs = []
  · subst last
    exact ⟨[], List.intercalate_singleton.trans (List.append_nil x).symm⟩
  · exact ⟨_, joined_cons x last⟩

private theorem length_le_joined {xs : List Bytes} (filled : ∀ x ∈ xs, x ≠ []) :
    xs.length ≤ (joined xs).length := by
  induction xs with
  | nil => exact Nat.zero_le _
  | cons x xs ih =>
      have first : 0 < x.length := List.length_pos_iff.mpr (filled x List.mem_cons_self)
      have rest := ih fun y member => filled y (List.mem_cons_of_mem _ member)
      by_cases last : xs = []
      · subst last
        obtain ⟨more, text⟩ := joined_front x []
        rw [text, List.length_append, List.length_singleton]
        omega
      · rw [joined_cons x last, List.length_append, List.length_cons, List.length_cons]
        omega

private theorem length_joined_le {xs : List Bytes} {n : Nat} (short : ∀ x ∈ xs, x.length ≤ n) :
    (joined xs).length ≤ xs.length * (n + 1) := by
  induction xs with
  | nil => exact Nat.zero_le _
  | cons x xs ih =>
      have first := short x List.mem_cons_self
      have rest := ih fun y member => short y (List.mem_cons_of_mem _ member)
      rw [List.length_cons, Nat.succ_mul]
      by_cases last : xs = []
      · subst last
        have single : joined [x] = x := List.intercalate_singleton
        rw [single]
        omega
      · rw [joined_cons x last, List.length_append, List.length_cons]
        omega

private theorem items_joined {parts : List (Bytes × α)} (some_part : parts ≠ [])
    (solid : isSpace close = false) (other : close ≠ comma)
    (reads : ∀ p ∈ parts, ∀ b t, b = comma ∨ b = close →
      item (p.1 ++ b :: t) = some (p.2, b :: t)) (enough : parts.length ≤ fuel) :
    items item close fuel (joined (parts.map Prod.fst) ++ close :: t) =
      some (parts.map Prod.snd, t) := by
  induction parts generalizing fuel with
  | nil => exact absurd rfl some_part
  | cons p parts ih =>
      rw [List.length_cons] at enough
      obtain ⟨fuel, rfl⟩ : ∃ n, fuel = n + 1 := ⟨fuel - 1, by omega⟩
      have head := reads p List.mem_cons_self
      have tail : ∀ q ∈ parts, ∀ b t, b = comma ∨ b = close →
          item (q.1 ++ b :: t) = some (q.2, b :: t) :=
        fun q member => reads q (List.mem_cons_of_mem _ member)
      by_cases last : parts = []
      · subst last
        show items item close (fuel + 1) (joined [p.1] ++ close :: t) = some ([p.2], t)
        have single : joined [p.1] = p.1 := List.intercalate_singleton
        rw [single, items, head close t (Or.inr rfl)]
        dsimp only
        rw [skipSpace_cons solid]
        dsimp only
        rw [if_neg other, if_pos rfl]
      · have more : parts.map Prod.fst ≠ [] := fun none => last (List.map_eq_nil_iff.mp none)
        rw [List.map_cons, joined_cons _ more, List.append_assoc, List.cons_append, items,
          head comma _ (Or.inl rfl)]
        dsimp only
        rw [skipSpace_cons (by decide)]
        dsimp only
        rw [if_pos rfl, ih last tail (by omega)]
        rfl

private theorem listing_joined {parts : List (Bytes × α)} (solid : isSpace close = false)
    (other : close ≠ comma)
    (starts : ∀ p ∈ parts, ∃ b rest, p.1 = b :: rest ∧ isSpace b = false ∧ b ≠ close)
    (reads : ∀ p ∈ parts, ∀ b t, b = comma ∨ b = close →
      item (p.1 ++ b :: t) = some (p.2, b :: t)) :
    listing item close (joined (parts.map Prod.fst) ++ close :: t) =
      some (parts.map Prod.snd, t) := by
  cases parts with
  | nil =>
      show listing item close (close :: t) = some ([], t)
      rw [listing, skipSpace_cons solid, List.head?_cons, if_pos rfl, List.tail_cons]
  | cons p parts =>
      obtain ⟨b, rest, text, inside, apart⟩ := starts p List.mem_cons_self
      have enough : (p :: parts).length ≤
          (joined ((p :: parts).map Prod.fst) ++ close :: t).length := by
        have filled : ∀ x ∈ (p :: parts).map Prod.fst, x ≠ [] := by
          intro x member
          obtain ⟨q, found, rfl⟩ := List.mem_map.mp member
          obtain ⟨b, rest, text, -⟩ := starts q found
          rw [text]
          exact List.cons_ne_nil _ _
        have count := length_le_joined filled
        rw [List.length_map] at count
        rw [List.length_append]
        omega
      have front : ∃ tail, joined ((p :: parts).map Prod.fst) ++ close :: t = b :: tail := by
        obtain ⟨more, whole⟩ := joined_front p.1 (parts.map Prod.fst)
        rw [List.map_cons, whole, text]
        exact ⟨_, rfl⟩
      have read := @items_joined t α item close _ _ (List.cons_ne_nil p parts) solid other reads
        enough
      obtain ⟨tail, front⟩ := front
      rw [listing]
      rw [front] at read ⊢
      rw [skipSpace_cons inside, List.head?_cons,
        if_neg (fun same => apart (Option.some.inj same)), read]

end Listing

theorem value_writeObject {depth : Nat} {ms : List (Bytes × Bytes)} (read : Bytes → Value)
    (reads : ∀ m ∈ ms, ∀ b t, b = comma ∨ b = closeBrace →
      value depth (m.2 ++ b :: t) = some (read m.2, b :: t)) :
    value (depth + 1) (writeObject ms ++ t) =
      some (.object (ms.map fun m => (sanitize m.1, read m.2)), t) := by
  let parts := ms.map fun m => (writeMember m, (sanitize m.1, read m.2))
  have texts : parts.map Prod.fst = ms.map writeMember := List.map_map
  have values : parts.map Prod.snd = ms.map fun m => (sanitize m.1, read m.2) := List.map_map
  have listed : listing (member (value depth)) closeBrace
      (joined (parts.map Prod.fst) ++ closeBrace :: t) = some (parts.map Prod.snd, t) := by
    apply listing_joined (by decide) (by decide)
    · intro p found
      obtain ⟨m, -, rfl⟩ := List.mem_map.mp found
      exact ⟨quoteMark, _, rfl, by decide, by decide⟩
    · intro p found b t delimits
      obtain ⟨m, present, rfl⟩ := List.mem_map.mp found
      exact member_written (reads m present b t delimits)
  have text : writeObject ms ++ t =
      openBrace :: (joined (ms.map writeMember) ++ closeBrace :: t) := by
    rw [writeObject, List.cons_append, List.append_assoc]
    rfl
  rw [texts, values] at listed
  rw [text, value, skipSpace_cons (by decide), List.head?_cons, if_pos rfl, List.tail_cons, listed]
  rfl

private theorem length_writeMember_le (m : Bytes × Bytes) :
    (writeMember m).length ≤ 6 * m.1.length + m.2.length + 3 := by
  have short := length_quoted_le m.1
  simp only [writeMember, writeString, List.length_append, List.length_cons, List.length_nil]
  omega

theorem length_writeObject_le {ms : List (Bytes × Bytes)} {n : Nat}
    (short : ∀ m ∈ ms, 6 * m.1.length + m.2.length + 3 ≤ n) :
    (writeObject ms).length ≤ ms.length * (n + 1) + 2 := by
  have members : ∀ x ∈ ms.map writeMember, x.length ≤ n := by
    intro x member
    obtain ⟨m, found, rfl⟩ := List.mem_map.mp member
    exact Nat.le_trans (length_writeMember_le m) (short m found)
  have whole := length_joined_le members
  rw [List.length_map] at whole
  rw [writeObject, List.length_cons, List.length_append, List.length_singleton]
  omega

end L3Firewall.Foundation.Json
