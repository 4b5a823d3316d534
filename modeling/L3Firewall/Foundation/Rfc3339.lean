/- Foundation/Rfc3339
   digest: Times as RFC 3339 writes them with fractions of a second, and that the text tells
   the time. -/

import L3Firewall.Foundation.Calendar
import Mathlib.Data.List.TakeWhile

set_option autoImplicit false
set_option relaxedAutoImplicit false

namespace L3Firewall.Foundation.Rfc3339

open Calendar
open Decimal (padded padded_eq_digits digits_length digits_lt)

/-- The second on a clock, in the form yyyy-mm-ddThh:mm:ss. -/
def clock (wall : Nat) : List Char :=
  let d := dateOf (wall / 86400)
  padded 4 d.year ++ ('-' :: (padded 2 d.month ++ ('-' :: (padded 2 d.day ++ ('T' ::
    (padded 2 (wall / 3600 % 24) ++ (':' :: (padded 2 (wall / 60 % 60) ++ (':' ::
      padded 2 (wall % 60))))))))))

def trimmed (l : List Char) : List Char := (l.reverse.dropWhile (· == '0')).reverse

/-- Nanoseconds within a second. -/
def fraction (nanos : Nat) : List Char :=
  if nanos = 0 then [] else '.' :: trimmed (padded 9 nanos)

/-- Minutes east of Greenwich. -/
def zoneText (zone : Int) : List Char :=
  if zone = 0 then ['Z']
  else (if zone < 0 then '-' else '+') ::
    (padded 2 (zone.natAbs / 60) ++ ':' :: padded 2 (zone.natAbs % 60))

/-- The clock of a zone, for a nanosecond since 1970. -/
def wallClock (zone : Int) (t : Nat) : Int := (t / 1000000000 : Nat) + zone * 60

/-- Years have four digits and zones are less than a day apart, or there is no such text. -/
def rfc3339Nano (zone : Int) (t : Nat) : Option (List Char) :=
  if 10000 ≤ yearOf (wallClock zone t).toNat then none
  else if 24 ≤ zone.natAbs / 60 then none
  else some (clock (wallClock zone t).toNat ++
    (fraction (t % 1000000000) ++ zoneText zone))

section Numbers

variable {width a b : Nat}

private theorem length_padded (some_width : 0 < width) (fits : a < 10 ^ width) :
    (padded width a).length = width := by
  rw [padded_eq_digits some_width fits, digits_length]

private theorem padded_inj (some_width : 0 < width) (fits : a < 10 ^ width) (fits' : b < 10 ^ width)
    (same : padded width a = padded width b) : a = b := by
  rw [padded_eq_digits some_width fits, padded_eq_digits some_width fits'] at same
  rcases Nat.lt_trichotomy a b with lower | equal | higher
  · exact absurd (same ▸ digits_lt lower fits') (List.lt_irrefl _)
  · exact equal
  · exact absurd (same ▸ digits_lt higher fits) (List.lt_irrefl _)

private theorem padded_append_inj {x y : List Char} (some_width : 0 < width) (fits : a < 10 ^ width)
    (fits' : b < 10 ^ width) (same : padded width a ++ x = padded width b ++ y) :
    padded width a = padded width b ∧ x = y :=
  List.append_inj same (by rw [length_padded some_width fits, length_padded some_width fits'])

end Numbers

private theorem clock_append_inj {w w' : Nat} {x y : List Char} (era : yearOf w < 10000)
    (era' : yearOf w' < 10000) (same : clock w ++ x = clock w' ++ y) : w = w' ∧ x = y := by
  have small := dateOf_small (w / 86400)
  have small' := dateOf_small (w' / 86400)
  unfold clock at same
  dsimp only at same
  simp only [List.append_assoc, List.cons_append] at same
  obtain ⟨year, same⟩ := padded_append_inj (by decide) era era' same
  obtain ⟨month, same⟩ := padded_append_inj (by decide) (by omega) (by omega) (List.cons.inj same).2
  obtain ⟨day, same⟩ := padded_append_inj (by decide) (by omega) (by omega) (List.cons.inj same).2
  obtain ⟨hour, same⟩ := padded_append_inj (by decide) (by omega) (by omega) (List.cons.inj same).2
  obtain ⟨minute, same⟩ :=
    padded_append_inj (by decide) (by omega) (by omega) (List.cons.inj same).2
  obtain ⟨second, rest⟩ :=
    padded_append_inj (by decide) (by omega) (by omega) (List.cons.inj same).2
  refine ⟨stamp_injective era era' ?_, rest⟩
  unfold stamp
  dsimp only
  rw [year, month, day, hour, minute, second]

section Fractions

variable {l l' : List Char} {n n' : Nat}

private theorem trimmed_append (l : List Char) :
    ∃ zeros, l = trimmed l ++ List.replicate zeros '0' := by
  refine ⟨(l.reverse.takeWhile (· == '0')).length, ?_⟩
  have zeros : l.reverse.takeWhile (· == '0') =
      List.replicate (l.reverse.takeWhile (· == '0')).length '0' := by
    rw [List.eq_replicate_iff]
    refine ⟨rfl, fun c found => ?_⟩
    have zero := List.mem_takeWhile_imp found
    exact eq_of_beq zero
  have parts : (l.reverse.takeWhile (· == '0') ++ l.reverse.dropWhile (· == '0')).reverse = l := by
    rw [List.takeWhile_append_dropWhile, List.reverse_reverse]
  rw [List.reverse_append, zeros, List.reverse_replicate] at parts
  exact parts.symm

private theorem trimmed_inj (even : l.length = l'.length) (same : trimmed l = trimmed l') :
    l = l' := by
  obtain ⟨zeros, whole⟩ := trimmed_append l
  obtain ⟨zeros', whole'⟩ := trimmed_append l'
  have count : zeros = zeros' := by
    rw [whole, whole', same] at even
    simpa using even
  rw [whole, whole', same, count]

private theorem fraction_inj (small : n < 10 ^ 9) (small' : n' < 10 ^ 9)
    (same : fraction n = fraction n') : n = n' := by
  unfold fraction at same
  by_cases zero : n = 0
  · by_cases zero' : n' = 0
    · rw [zero, zero']
    · rw [if_pos zero, if_neg zero'] at same
      exact absurd same nofun
  · by_cases zero' : n' = 0
    · rw [if_neg zero, if_pos zero'] at same
      exact absurd same nofun
    · rw [if_neg zero, if_neg zero'] at same
      apply padded_inj (by decide) small small'
      apply trimmed_inj ?_ (List.cons.inj same).2
      rw [length_padded (by decide) small, length_padded (by decide) small']

end Fractions

def fractional (c : Char) : Bool := c == '.' || c.isDigit

private theorem mem_padded {width n : Nat} {c : Char} (member : c ∈ padded width n) :
    c.isDigit = true := by
  rcases List.mem_append.mp member with zero | digit
  · obtain rfl := (List.mem_replicate.mp zero).2
    rfl
  · exact Nat.isDigit_of_mem_toDigits (by decide) (by decide) digit

private theorem mem_fraction {n : Nat} {c : Char} (member : c ∈ fraction n) :
    fractional c = true := by
  unfold fraction at member
  split at member
  · exact absurd member List.not_mem_nil
  · rcases List.mem_cons.mp member with rfl | digit
    · rfl
    · have inside : c ∈ padded 9 n := by
        have found := List.mem_reverse.mp digit
        exact List.mem_reverse.mp ((List.dropWhile_sublist _).subset found)
      rw [fractional, mem_padded inside, Bool.or_true]

private theorem zoneText_first (zone : Int) :
    ∃ c rest, zoneText zone = c :: rest ∧ fractional c = false := by
  unfold zoneText
  split
  · exact ⟨_, _, rfl, by decide⟩
  · split
    · exact ⟨_, _, rfl, by decide⟩
    · exact ⟨_, _, rfl, by decide⟩

private theorem zoneText_inj {z z' : Int} (near : z.natAbs / 60 < 24) (near' : z'.natAbs / 60 < 24)
    (same : zoneText z = zoneText z') : z = z' := by
  unfold zoneText at same
  by_cases zero : z = 0
  · by_cases zero' : z' = 0
    · rw [zero, zero']
    · rw [if_pos zero, if_neg zero'] at same
      have first := (List.cons.inj same).1
      split at first <;> exact absurd first (by decide)
  · by_cases zero' : z' = 0
    · rw [if_neg zero, if_pos zero'] at same
      have first := (List.cons.inj same).1
      split at first <;> exact absurd first (by decide)
    · rw [if_neg zero, if_neg zero'] at same
      obtain ⟨sign, rest⟩ := List.cons.inj same
      obtain ⟨hours, rest⟩ := padded_append_inj (by decide) (by omega) (by omega) rest
      have hour := padded_inj (by decide) (by omega) (by omega) hours
      have minute := padded_inj (by decide) (by omega) (by omega) (List.cons.inj rest).2
      have side : z < 0 ↔ z' < 0 := by
        constructor
        · intro west
          by_contra east
          rw [if_pos west, if_neg east] at sign
          exact absurd sign (by decide)
        · intro west
          by_contra east
          rw [if_neg east, if_pos west] at sign
          exact absurd sign (by decide)
      omega

private theorem suffix_inj {n n' : Nat} {z z' : Int} (small : n < 10 ^ 9) (small' : n' < 10 ^ 9)
    (near : z.natAbs / 60 < 24) (near' : z'.natAbs / 60 < 24)
    (same : fraction n ++ zoneText z = fraction n' ++ zoneText z') : n = n' ∧ z = z' := by
  have front (n : Nat) (z : Int) :
      (fraction n ++ zoneText z).takeWhile fractional = fraction n := by
    obtain ⟨c, rest, first, stops⟩ := zoneText_first z
    rw [List.takeWhile_append_of_pos (fun c member => mem_fraction member), first,
      List.takeWhile_cons_of_neg (by simp [stops]), List.append_nil]
  have parts : fraction n = fraction n' := by
    rw [← front n z, ← front n' z', same]
  refine ⟨fraction_inj small small' parts, zoneText_inj near near' ?_⟩
  rw [parts] at same
  exact List.append_cancel_left same

theorem rfc3339Nano_inj {zone zone' : Int} {t t' : Nat} {text : List Char}
    (era : 0 ≤ wallClock zone t) (era' : 0 ≤ wallClock zone' t')
    (written : rfc3339Nano zone t = some text) (written' : rfc3339Nano zone' t' = some text) :
    zone = zone' ∧ t = t' := by
  unfold rfc3339Nano at written written'
  split at written
  · exact absurd written nofun
  split at written
  · exact absurd written nofun
  split at written'
  · exact absurd written' nofun
  split at written'
  · exact absurd written' nofun
  next years near years' near' =>
    have same := (Option.some.inj written).trans (Option.some.inj written').symm
    obtain ⟨wall, rest⟩ := clock_append_inj (by omega) (by omega) same
    obtain ⟨nanos, zones⟩ := suffix_inj (by omega) (by omega) (by omega) (by omega) rest
    subst zones
    refine ⟨rfl, ?_⟩
    unfold wallClock at wall era era'
    omega

example : (rfc3339Nano 90 68213107000000000).map String.ofList =
    some "1972-02-29T13:35:07+01:30" := by decide +kernel

example : (rfc3339Nano 0 68213107050000000).map String.ofList =
    some "1972-02-29T12:05:07.05Z" := by decide +kernel

end L3Firewall.Foundation.Rfc3339
