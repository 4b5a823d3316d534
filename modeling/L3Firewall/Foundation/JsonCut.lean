/- Foundation/JsonCut
   digest: JSON texts that go on or break off: what was read before the end of a text is read of
   every longer one. -/

import L3Firewall.Foundation.Json

set_option autoImplicit false
set_option relaxedAutoImplicit false

namespace L3Firewall.Foundation.JsonCut

open Utf8
open JsonText
open Json

/-- What is read in front of some byte is read of every longer text. -/
def Steady {α : Type} (read : Bytes → Option (α × Bytes)) : Prop :=
  ∀ s a b rest t, read s = some (a, b :: rest) → read (s ++ t) = some (a, b :: rest ++ t)

variable {s rest t : Bytes} {b : UInt8} {c : Char} {fuel fuel' : Nat}

/-! Strings. -/

private theorem hex4_some {n : Nat} (read : hex4 s = some (n, rest)) :
    rest <:+ s ∧ ∀ t, hex4 (s ++ t) = some (n, rest ++ t) := by
  match s, read with
  | a :: b :: c :: d :: s, read =>
      simp only [hex4, List.cons_append, Option.pure_def, Option.bind_eq_bind,
        Option.bind_eq_some_iff, Option.some.injEq, Prod.mk.injEq] at read ⊢
      obtain ⟨w, first, x, second, y, third, z, fourth, value, rfl⟩ := read
      exact ⟨⟨[a, b, c, d], rfl⟩,
        fun t => ⟨w, first, x, second, y, third, z, fourth, value, rfl⟩⟩

private theorem secondHalf_some {n : Nat} (read : secondHalf s = some (n, rest)) :
    rest <:+ s ∧ ∀ t, secondHalf (s ++ t) = some (n, rest ++ t) := by
  match s, read with
  | a :: b :: s, read =>
      simp only [secondHalf, Option.ite_none_right_eq_some] at read
      obtain ⟨inside, longer⟩ := hex4_some read.2
      refine ⟨inside.trans ⟨[a, b], rfl⟩, fun t => ?_⟩
      rw [List.cons_append, List.cons_append, secondHalf, if_pos read.1, longer]

/-- Half of a pair that stands alone here does so in the longer text. -/
def Alone (rest t : Bytes) : Prop := secondHalf rest = none → secondHalf (rest ++ t) = none

private theorem unicode_some (read : unicode s = some (c, rest)) :
    rest <:+ s ∧ ∀ t, Alone rest t → unicode (s ++ t) = some (c, rest ++ t) := by
  unfold unicode at read ⊢
  cases first : hex4 s with
  | none => rw [first] at read; cases read
  | some half =>
      obtain ⟨r, s'⟩ := half
      obtain ⟨inside, longer⟩ := hex4_some first
      rw [first] at read
      simp only [longer]
      dsimp only at read
      by_cases surrogate : 0xD800 ≤ r ∧ r < 0xE000
      · simp only [if_pos surrogate] at read ⊢
        cases second : secondHalf s' with
        | none =>
            rw [second] at read
            obtain ⟨rfl, rfl⟩ := Prod.mk.inj (Option.some.inj read)
            exact ⟨inside, fun t alone => by rw [alone second]⟩
        | some other =>
            obtain ⟨r', s''⟩ := other
            obtain ⟨further, longer⟩ := secondHalf_some second
            rw [second] at read
            simp only [longer]
            dsimp only at read
            by_cases pair : r < 0xDC00 ∧ 0xDC00 ≤ r' ∧ r' < 0xE000
            · simp only [if_pos pair] at read ⊢
              obtain ⟨rfl, rfl⟩ := Prod.mk.inj (Option.some.inj read)
              exact ⟨further.trans inside, fun t _ => rfl⟩
            · simp only [if_neg pair] at read ⊢
              obtain ⟨rfl, rfl⟩ := Prod.mk.inj (Option.some.inj read)
              exact ⟨inside, fun t _ => rfl⟩
      · simp only [if_neg surrogate] at read ⊢
        obtain ⟨rfl, rfl⟩ := Prod.mk.inj (Option.some.inj read)
        exact ⟨inside, fun t _ => rfl⟩

private theorem escaped_some (read : escaped s = some (c, rest)) :
    rest <:+ s ∧ ∀ t, Alone rest t → escaped (s ++ t) = some (c, rest ++ t) := by
  cases s with
  | nil => cases read
  | cons b s =>
      simp only [escaped, List.cons_append] at read ⊢
      by_cases code : b = 'u'.toUInt8
      · simp only [if_pos code] at read ⊢
        obtain ⟨inside, longer⟩ := unicode_some read
        exact ⟨inside.trans (List.suffix_cons b s), longer⟩
      · simp only [if_neg code] at read ⊢
        obtain ⟨found, meaning, same⟩ := Option.map_eq_some_iff.mp read
        obtain ⟨rfl, rfl⟩ := Prod.mk.inj same
        exact ⟨List.suffix_cons b s, fun t _ => by rw [meaning, Option.map_some]⟩

/-- One character of a string, and what follows it. -/
inductive Spells : Bytes → Char → Bytes → Prop
  | escape {s rest : Bytes} {c : Char} (meaning : escaped s = some (c, rest)) :
      Spells (backslash :: s) c rest
  | plain {b : UInt8} {s : Bytes} {c : Char} (ordinary : Ordinary b)
      (found : lead (b :: s) = some c) : Spells (b :: s) c ((b :: s).drop c.utf8Size)
  | bad {b : UInt8} {s : Bytes} (ordinary : Ordinary b) (missing : lead (b :: s) = none) :
      Spells (b :: s) replacement s

private theorem stringBody_of_spells (spells : Spells s c rest) :
    stringBody (fuel + 1) s =
      (stringBody fuel rest).map fun out => (String.utf8EncodeChar c ++ out.1, out.2) := by
  cases spells with
  | escape meaning => rw [stringBody, if_neg (by decide), if_pos rfl, meaning, Option.bind_some]
  | plain ordinary found =>
      rw [stringBody, if_neg ordinary.1, if_neg ordinary.2.1, if_neg ordinary.2.2, found]
  | bad ordinary missing =>
      rw [stringBody, if_neg ordinary.1, if_neg ordinary.2.1, if_neg ordinary.2.2, missing]

private theorem stringBody_cases {out : Bytes × Bytes} (read : stringBody (fuel + 1) s = some out) :
    s = quoteMark :: out.2 ∧ out.1 = [] ∨
      ∃ c rest later, Spells s c rest ∧ stringBody fuel rest = some later ∧
        (String.utf8EncodeChar c ++ later.1, later.2) = out := by
  have goes (c : Char) (rest : Bytes) (spells : Spells s c rest) :
      ∃ c rest later, Spells s c rest ∧ stringBody fuel rest = some later ∧
        (String.utf8EncodeChar c ++ later.1, later.2) = out := by
    rw [stringBody_of_spells spells] at read
    obtain ⟨later, body, same⟩ := Option.map_eq_some_iff.mp read
    exact ⟨c, rest, later, spells, body, same⟩
  cases s with
  | nil => cases read
  | cons b s =>
      by_cases quote : b = quoteMark
      · subst quote
        obtain rfl := Option.some.inj read
        exact .inl ⟨rfl, rfl⟩
      by_cases slash : b = backslash
      · subst slash
        cases meaning : escaped s with
        | none =>
            rw [stringBody, if_neg quote, if_pos rfl, meaning] at read
            cases read
        | some out => exact .inr (goes out.1 out.2 (.escape meaning))
      by_cases control : b < 0x20
      · rw [stringBody, if_neg quote, if_neg slash, if_pos control] at read
        cases read
      cases found : lead (b :: s) with
      | some c => exact .inr (goes c _ (.plain ⟨quote, slash, control⟩ found))
      | none => exact .inr (goes replacement s (.bad ⟨quote, slash, control⟩ found))

private theorem Spells.suffix (spells : Spells s c rest) : rest <:+ s := by
  cases spells with
  | escape meaning => exact (escaped_some meaning).1.trans (List.suffix_cons backslash _)
  | plain ordinary found => exact List.drop_suffix _ _
  | bad ordinary missing => exact List.suffix_cons _ _

private theorem quote_mem {out : Bytes × Bytes} (read : stringBody fuel s = some out) :
    quoteMark ∈ s := by
  induction fuel generalizing s out with
  | zero => cases read
  | succ fuel ih =>
      rcases stringBody_cases read with ⟨rfl, -⟩ | ⟨c, rest, later, spells, body, -⟩
      · exact List.mem_cons_self
      · exact spells.suffix.subset (ih body)

/-- A string that is read to its end does not break off within an escape. -/
private theorem alone_of_string {out : Bytes × Bytes} (read : stringBody fuel s = some out)
    (t : Bytes) : Alone s t := by
  intro missing
  match s, read, missing with
  | [], read, _ => cases fuel <;> cases read
  | [b], read, _ =>
      have quote : quoteMark = b := List.mem_singleton.mp (quote_mem read)
      cases t with
      | nil => rfl
      | cons a t =>
          show secondHalf (b :: a :: t) = none
          rw [secondHalf, if_neg]
          rintro ⟨slash, -⟩
          rw [← quote] at slash
          exact absurd slash (by decide)
  | a :: b :: s, read, missing =>
      show secondHalf (a :: b :: (s ++ t)) = none
      rw [secondHalf] at missing ⊢
      by_cases code : a = backslash ∧ b = 'u'.toUInt8
      · rw [if_pos code] at missing ⊢
        obtain ⟨rfl, rfl⟩ := code
        -- The escape is read as one of its own, so it has its four digits.
        cases fuel with
        | zero => cases read
        | succ fuel =>
            rw [stringBody, if_neg (by decide), if_pos rfl, escaped, if_pos rfl, unicode,
              missing] at read
            cases read
      · rw [if_neg code]

private theorem quote_not_mem_tail (c : Char) : quoteMark ∉ (String.utf8EncodeChar c).tail := by
  have apart (n : Nat) : quoteMark ≠ UInt8.ofNat (n % 64 + 0x80) := by
    intro same
    have codes := congrArg UInt8.toNat same
    rw [UInt8.toNat_ofNat', show quoteMark.toNat = 34 from rfl] at codes
    omega
  unfold String.utf8EncodeChar
  dsimp only
  split
  · exact List.not_mem_nil
  · split
    · simp only [List.tail_cons, List.mem_cons, List.not_mem_nil, apart, or_self,
        not_false_eq_true]
    · split <;> simp only [List.tail_cons, List.mem_cons, List.not_mem_nil, apart, or_self,
        not_false_eq_true]

/-- A byte that begins no character does not begin one in the longer text, if a quote follows. -/
private theorem lead_none_append (missing : lead (b :: s) = none) (quote : quoteMark ∈ s)
    (t : Bytes) : lead (b :: (s ++ t)) = none := by
  cases found : lead (b :: (s ++ t)) with
  | none => rfl
  | some c =>
      obtain ⟨more, text⟩ := lead_some found
      rw [← List.cons_append] at text
      rcases List.append_eq_append_iff.mp text with ⟨lost, whole, -⟩ | ⟨more', whole, -⟩
      · have inside : quoteMark ∈ (String.utf8EncodeChar c).tail := by
          rw [whole, List.cons_append, List.tail_cons]
          exact List.mem_append_left lost quote
        exact absurd inside (quote_not_mem_tail c)
      · rw [whole, lead_encode] at missing
        cases missing

private theorem Spells.append {out : Bytes × Bytes} (spells : Spells s c rest)
    (read : stringBody fuel rest = some out) (t : Bytes) : Spells (s ++ t) c (rest ++ t) := by
  cases spells with
  | escape meaning => exact .escape ((escaped_some meaning).2 t (alone_of_string read t))
  | @plain b s c ordinary found =>
      obtain ⟨after, text⟩ := lead_some found
      have longer : lead (b :: (s ++ t)) = some c := by
        rw [← List.cons_append, text, List.append_assoc, lead_encode]
      have short : c.utf8Size ≤ (b :: s).length := by
        rw [text, List.length_append, String.length_utf8EncodeChar]
        exact Nat.le_add_right _ _
      rw [← List.drop_append_of_le_length short]
      exact .plain ordinary longer
  | bad ordinary missing => exact .bad ordinary (lead_none_append missing (quote_mem read) t)

private theorem stringBody_append {out : Bytes × Bytes} (read : stringBody fuel s = some out)
    (more : fuel ≤ fuel') (t : Bytes) : stringBody fuel' (s ++ t) = some (out.1, out.2 ++ t) := by
  induction fuel generalizing s out fuel' with
  | zero => cases read
  | succ fuel ih =>
      obtain ⟨fuel', rfl⟩ : ∃ n, fuel' = n + 1 := ⟨fuel' - 1, by omega⟩
      rcases stringBody_cases read with ⟨rfl, none⟩ | ⟨c, rest, later, spells, body, rfl⟩
      · rw [List.cons_append, stringBody, if_pos rfl, none]
      · rw [stringBody_of_spells (spells.append body t), ih body (Nat.le_of_succ_le_succ more)]
        rfl

/-! Numbers. -/

section Spans

variable {α : Type} {p : α → Bool} {x : α} {l more : List α}

private theorem dropWhile_append_found (found : l.dropWhile p = x :: more) (t : List α) :
    (l ++ t).dropWhile p = x :: more ++ t := by
  rw [List.dropWhile_append, found]
  rfl

private theorem takeWhile_append_found (found : l.dropWhile p = x :: more) (t : List α) :
    (l ++ t).takeWhile p = l.takeWhile p := by
  rw [List.takeWhile_append]
  split
  · next whole =>
      have parts := congrArg List.length (List.takeWhile_append_dropWhile (p := p) (l := l))
      rw [found, List.length_append, whole, List.length_cons] at parts
      omega
  · rfl

end Spans

private theorem someDigits_steady : Steady someDigits := by
  intro s a b rest t read
  unfold someDigits at read ⊢
  split at read
  · cases read
  · next some_digit =>
      obtain ⟨rfl, found⟩ := Prod.mk.inj (Option.some.inj read)
      rw [takeWhile_append_found found, dropWhile_append_found found, if_neg some_digit]

private theorem integral_steady : Steady integral := by
  intro s a b rest t read
  cases s with
  | nil => cases read
  | cons d s =>
      rw [integral] at read
      rw [List.cons_append, integral]
      split at read <;> rename_i zero
      · obtain ⟨rfl, rfl⟩ := Prod.mk.inj (Option.some.inj read)
        rw [if_pos zero]
      · rw [if_neg zero]
        split at read <;> rename_i digit
        · obtain ⟨rfl, found⟩ := Prod.mk.inj (Option.some.inj read)
          rw [if_pos digit, takeWhile_append_found found, dropWhile_append_found found]
        · cases read

private theorem fraction_steady : Steady fraction := by
  intro s a b rest t read
  cases s with
  | nil => cases read
  | cons d s =>
      rw [fraction] at read
      rw [List.cons_append, fraction]
      split at read <;> rename_i point
      · obtain ⟨⟨ds, after⟩, digits, same⟩ := Option.map_eq_some_iff.mp read
        obtain ⟨rfl, rfl⟩ := Prod.mk.inj same
        rw [if_pos point, someDigits_steady s ds b rest t digits]
        rfl
      · obtain ⟨rfl, found⟩ := Prod.mk.inj (Option.some.inj read)
        obtain ⟨rfl, rfl⟩ := List.cons.inj found
        rw [if_neg point, List.cons_append]

private theorem exponent_steady : Steady exponent := by
  intro s a b rest t read
  cases s with
  | nil => cases read
  | cons d s =>
      rw [exponent] at read
      rw [List.cons_append, exponent]
      split at read <;> rename_i power
      · obtain ⟨⟨ds, after⟩, digits, same⟩ := Option.map_eq_some_iff.mp read
        obtain ⟨rfl, rfl⟩ := Prod.mk.inj same
        rw [if_pos power]
        cases s with
        | nil => cases digits
        | cons x s =>
            -- The sign is the first byte, or there is none.
            by_cases signed : (x :: s).head? = some minus ∨ (x :: s).head? = some '+'.toUInt8
            · have still : (x :: (s ++ t)).head? = some minus ∨
                  (x :: (s ++ t)).head? = some '+'.toUInt8 := signed
              simp only [List.cons_append, if_pos signed, if_pos still, List.take_succ_cons,
                List.take_zero, List.length_singleton, List.drop_succ_cons, List.drop_zero]
                at digits ⊢
              rw [someDigits_steady s ds b rest t digits]
              rfl
            · have still : ¬ ((x :: (s ++ t)).head? = some minus ∨
                  (x :: (s ++ t)).head? = some '+'.toUInt8) := signed
              simp only [List.cons_append, if_neg signed, if_neg still, List.take_zero,
                List.length_nil, List.drop_zero] at digits ⊢
              rw [← List.cons_append, someDigits_steady (x :: s) ds b rest t digits]
              rfl
      · obtain ⟨rfl, found⟩ := Prod.mk.inj (Option.some.inj read)
        obtain ⟨rfl, rfl⟩ := List.cons.inj found
        rw [if_neg power, List.cons_append]

private theorem number_steady : Steady number := by
  intro s a b rest t read
  have signed : integral (s.drop (sign s).length) ≠ none →
      sign (s ++ t) = sign s ∧ (s ++ t).drop (sign s).length = s.drop (sign s).length ++ t := by
    intro some_digit
    cases s with
    | nil => exact absurd rfl some_digit
    | cons d s =>
        refine ⟨rfl, List.drop_append_of_le_length ?_⟩
        unfold sign
        split
        · exact Nat.succ_le_succ (Nat.zero_le _)
        · exact Nat.zero_le _
  unfold number at read ⊢
  cases first : integral (s.drop (sign s).length) with
  | none =>
      rw [first] at read
      cases read
  | some front =>
      obtain ⟨whole, rest₁⟩ := front
      obtain ⟨same, dropped⟩ := signed (by rw [first]; exact Option.some_ne_none _)
      rw [first] at read
      dsimp only at read
      cases second : fraction rest₁ with
      | none =>
          rw [second] at read
          cases read
      | some middle =>
          obtain ⟨part, rest₂⟩ := middle
          rw [second] at read
          obtain ⟨⟨power, after⟩, third, text⟩ := Option.map_eq_some_iff.mp read
          obtain ⟨rfl, rfl⟩ := Prod.mk.inj text
          -- The number ends before the text does, and so do its parts.
          cases rest₂ with
          | nil => cases third
          | cons b₂ rest₂ =>
              cases rest₁ with
              | nil => cases second
              | cons b₁ rest₁ =>
                  rw [same, dropped, integral_steady _ _ _ _ t first]
                  dsimp only
                  rw [fraction_steady _ _ _ _ t second]
                  dsimp only
                  rw [exponent_steady _ _ _ _ t third]
                  rfl

/-! Values. -/

private theorem number_first (read : number (b :: s) ≠ none) : b = minus ∨ isDigit b = true := by
  by_contra other
  obtain ⟨signless, noDigit⟩ := not_or.mp other
  have zero : b ≠ '0'.toUInt8 := by
    rintro rfl
    exact noDigit (by decide)
  apply read
  have unsigned : sign (b :: s) = [] := if_neg fun same => signless (Option.some.inj same)
  rw [number, unsigned, List.length_nil, List.drop_zero, integral, if_neg zero, if_neg noDigit]

private theorem word_steady {text : List Char} {v : Value} : Steady (word text v) := by
  intro s a b rest t read
  unfold word at read ⊢
  split at read
  · next front =>
      obtain ⟨rfl, found⟩ := Prod.mk.inj (Option.some.inj read)
      have short : text.length ≤ s.length := by
        have size := front.length_le
        rwa [ascii, List.length_map] at size
      rw [if_pos (front.trans (List.prefix_append s t)), List.drop_append_of_le_length short, found]
  · cases read

private theorem unquoted_steady : Steady fun s =>
    (word ['n', 'u', 'l', 'l'] .null s).or <| (word ['t', 'r', 'u', 'e'] (.bool true) s).or <|
      (word ['f', 'a', 'l', 's', 'e'] (.bool false) s).or <|
        (number s).map fun out => (.number out.1, out.2) := by
  intro s a b rest t read
  cases s with
  | nil => cases read
  | cons d s =>
      by_cases letter : d = 'n'.toUInt8 ∨ d = 't'.toUInt8 ∨ d = 'f'.toUInt8
      · have noNumber (s : Bytes) : number (d :: s) = none := by
          by_contra read
          rcases letter with rfl | rfl | rfl <;> exact absurd (number_first read) (by decide)
        simp only [List.cons_append, noNumber, Option.map_none, Option.or_none] at read ⊢
        have other {c : Char} {text : List Char} {v : Value} (apart : d ≠ c.toUInt8) (s : Bytes) :
            word (c :: text) v (d :: s) = none := word_other apart
        rcases letter with rfl | rfl | rfl
        · simp only [other (c := 't') (by decide), other (c := 'f') (by decide), Option.or_none]
            at read ⊢
          exact word_steady _ _ _ _ t read
        · simp only [other (c := 'n') (by decide), other (c := 'f') (by decide), Option.or_none,
            Option.none_or] at read ⊢
          exact word_steady _ _ _ _ t read
        · simp only [other (c := 'n') (by decide), other (c := 't') (by decide), Option.none_or]
            at read ⊢
          exact word_steady _ _ _ _ t read
      · obtain ⟨noNull, noTrue, noFalse⟩ : d ≠ 'n'.toUInt8 ∧ d ≠ 't'.toUInt8 ∧ d ≠ 'f'.toUInt8 := by
          simpa only [not_or] using letter
        simp only [List.cons_append, word_other noNull, word_other noTrue, word_other noFalse,
          Option.none_or] at read ⊢
        obtain ⟨⟨text, after⟩, digits, same⟩ := Option.map_eq_some_iff.mp read
        obtain ⟨rfl, rfl⟩ := Prod.mk.inj same
        rw [← List.cons_append, number_steady _ _ _ _ t digits]
        rfl

private theorem scalar_steady : Steady scalar := by
  intro s a b rest t read
  cases s with
  | nil => cases read
  | cons d s =>
      rw [List.cons_append]
      unfold scalar at read ⊢
      rw [List.head?_cons] at read ⊢
      by_cases quote : some d = some quoteMark
      · rw [if_pos quote] at read ⊢
        obtain ⟨⟨out, after⟩, body, same⟩ := Option.map_eq_some_iff.mp read
        obtain ⟨rfl, rfl⟩ := Prod.mk.inj same
        have enough : (d :: s).length ≤ (d :: (s ++ t)).length := by
          rw [List.length_cons, List.length_cons, List.length_append]
          omega
        rw [List.tail_cons] at body ⊢
        rw [stringBody_append body enough]
        rfl
      · rw [if_neg quote] at read ⊢
        rw [← List.cons_append]
        exact unquoted_steady _ a b rest t read

section Listing

variable {α : Type} {item : Bytes → Option (α × Bytes)} {close : UInt8}

private theorem skipSpace_append (found : skipSpace s = b :: rest) (t : Bytes) :
    skipSpace (s ++ t) = b :: rest ++ t := dropWhile_append_found found t

private theorem items_append {l : List α} (steady : Steady item)
    (read : items item close fuel s = some (l, rest)) (more : fuel ≤ fuel') (t : Bytes) :
    items item close fuel' (s ++ t) = some (l, rest ++ t) := by
  induction fuel generalizing s l fuel' with
  | zero => cases read
  | succ fuel ih =>
      obtain ⟨fuel', rfl⟩ : ∃ n, fuel' = n + 1 := ⟨fuel' - 1, by omega⟩
      rw [items] at read ⊢
      cases first : item s with
      | none =>
          rw [first] at read
          cases read
      | some found =>
          obtain ⟨a, s'⟩ := found
          rw [first] at read
          dsimp only at read
          cases solid : skipSpace s' with
          | nil =>
              rw [solid] at read
              cases read
          | cons b s'' =>
              rw [solid] at read
              dsimp only at read
              cases s' with
              | nil => cases solid
              | cons x s' =>
                  rw [steady _ _ _ _ t first]
                  dsimp only
                  rw [skipSpace_append solid, List.cons_append]
                  dsimp only
                  split at read <;> rename_i comma_
                  · obtain ⟨⟨l', after⟩, later, same⟩ := Option.map_eq_some_iff.mp read
                    obtain ⟨rfl, rfl⟩ := Prod.mk.inj same
                    rw [if_pos comma_, ih later (Nat.le_of_succ_le_succ more)]
                    rfl
                  · split at read <;> rename_i closes
                    · obtain ⟨rfl, rfl⟩ := Prod.mk.inj (Option.some.inj read)
                      rw [if_neg comma_, if_pos closes]
                    · cases read

private theorem listing_append {l : List α} (steady : Steady item)
    (starts : ∀ s, skipSpace s = [] → item s = none)
    (read : listing item close s = some (l, rest)) (t : Bytes) :
    listing item close (s ++ t) = some (l, rest ++ t) := by
  unfold listing at read ⊢
  cases solid : skipSpace s with
  | nil =>
      rw [solid, if_neg (by simp)] at read
      cases size : s.length with
      | zero =>
          rw [size] at read
          cases read
      | succ n =>
          rw [size, items, starts s solid] at read
          cases read
  | cons b s' =>
      rw [solid] at read
      rw [skipSpace_append solid]
      rw [List.head?_cons, List.tail_cons] at read
      rw [List.cons_append, List.head?_cons, List.tail_cons]
      by_cases closes : some b = some close
      · rw [if_pos closes] at read ⊢
        obtain ⟨rfl, rfl⟩ := Prod.mk.inj (Option.some.inj read)
        rfl
      · rw [if_neg closes] at read ⊢
        exact items_append steady read (by rw [List.length_append]; omega) t

end Listing

private theorem member_steady {val : Bytes → Option (Value × Bytes)} (steady : Steady val) :
    Steady (member val) := by
  intro s a b rest t read
  unfold member at read ⊢
  dsimp only at read ⊢
  cases solid : skipSpace s with
  | nil =>
      rw [solid] at read
      cases read
  | cons q s₁ =>
      rw [solid] at read
      rw [skipSpace_append solid]
      rw [List.head?_cons, List.tail_cons] at read
      rw [List.cons_append, List.head?_cons, List.tail_cons]
      by_cases quote : some q = some quoteMark
      · rw [if_pos quote] at read ⊢
        cases key : stringBody (q :: s₁).length s₁ with
        | none =>
            rw [key] at read
            cases read
        | some found =>
            obtain ⟨name, s₂⟩ := found
            have enough : (q :: s₁).length ≤ (q :: (s₁ ++ t)).length := by
              rw [List.length_cons, List.length_cons, List.length_append]
              omega
            rw [key] at read
            rw [stringBody_append key enough]
            dsimp only at read ⊢
            cases after : skipSpace s₂ with
            | nil =>
                rw [after] at read
                cases read
            | cons x s₃ =>
                rw [after] at read
                rw [skipSpace_append after]
                rw [List.head?_cons, List.tail_cons] at read
                rw [List.cons_append, List.head?_cons, List.tail_cons]
                by_cases separated : some x = some colon
                · rw [if_pos separated] at read ⊢
                  obtain ⟨⟨v, s₄⟩, found, same⟩ := Option.map_eq_some_iff.mp read
                  obtain ⟨rfl, rfl⟩ := Prod.mk.inj same
                  rw [steady _ _ _ _ t found]
                  rfl
                · rw [if_neg separated] at read
                  cases read
      · rw [if_neg quote] at read
        cases read

private theorem member_starts {val : Bytes → Option (Value × Bytes)} (s : Bytes)
    (empty : skipSpace s = []) : member val s = none := by
  unfold member
  dsimp only
  rw [empty]
  rfl

private theorem value_starts (depth : Nat) (s : Bytes) (empty : skipSpace s = []) :
    value depth s = none := by
  cases depth with
  | zero =>
      rw [value, empty]
      rfl
  | succ depth =>
      rw [value, empty]
      rfl

private theorem value_steady (depth : Nat) : Steady (value depth) := by
  induction depth with
  | zero =>
      intro s a b rest t read
      rw [value] at read ⊢
      cases solid : skipSpace s with
      | nil =>
          rw [solid] at read
          cases read
      | cons d s' =>
          rw [solid] at read
          rw [skipSpace_append solid]
          exact scalar_steady _ _ _ _ t read
  | succ depth ih =>
      intro s a b rest t read
      rw [value] at read ⊢
      cases solid : skipSpace s with
      | nil =>
          rw [solid] at read
          cases read
      | cons d s' =>
          rw [solid] at read
          rw [skipSpace_append solid]
          rw [List.head?_cons, List.tail_cons] at read
          rw [List.cons_append, List.head?_cons, List.tail_cons]
          by_cases brace : some d = some openBrace
          · rw [if_pos brace] at read ⊢
            obtain ⟨⟨members, after⟩, listed, same⟩ := Option.map_eq_some_iff.mp read
            obtain ⟨rfl, rfl⟩ := Prod.mk.inj same
            rw [listing_append (member_steady ih) member_starts listed]
            rfl
          rw [if_neg brace] at read ⊢
          by_cases bracket : some d = some openBracket
          · rw [if_pos bracket] at read ⊢
            obtain ⟨⟨values, after⟩, listed, same⟩ := Option.map_eq_some_iff.mp read
            obtain ⟨rfl, rfl⟩ := Prod.mk.inj same
            rw [listing_append ih (value_starts depth) listed]
            rfl
          · rw [if_neg bracket] at read ⊢
            rw [← List.cons_append]
            exact scalar_steady _ _ _ _ t read

theorem object_of_longer {depth : Nat} {v : Value}
    (read : value (depth + 1) (openBrace :: s) = some (v, rest)) (t : Bytes) :
    value (depth + 1) (openBrace :: s ++ t) = some (v, rest ++ t) := by
  have solid (s : Bytes) : skipSpace (openBrace :: s) = openBrace :: s :=
    skipSpace_cons (by decide)
  rw [value, solid, List.head?_cons, if_pos rfl, List.tail_cons] at read
  obtain ⟨⟨members, after⟩, listed, same⟩ := Option.map_eq_some_iff.mp read
  obtain ⟨rfl, rfl⟩ := Prod.mk.inj same
  rw [List.cons_append, value, solid, List.head?_cons, if_pos rfl, List.tail_cons,
    listing_append (member_steady (value_steady depth)) member_starts listed]
  rfl

end L3Firewall.Foundation.JsonCut
