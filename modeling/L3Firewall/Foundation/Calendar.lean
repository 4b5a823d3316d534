/- Foundation/Calendar
   digest: Dates of the Gregorian calendar and sortable time stamps. -/

import L3Firewall.Foundation.Decimal

set_option autoImplicit false
set_option relaxedAutoImplicit false

namespace L3Firewall.Foundation.Calendar

open Decimal

/-! Dates. -/

structure Date where
  year : Nat
  month : Nat
  day : Nat
  deriving DecidableEq

def isLeap (year : Nat) : Bool :=
  decide (year % 4 = 0) && (decide (year % 100 ≠ 0) || decide (year % 400 = 0))

def daysIn (year month : Nat) : Nat :=
  if month = 2 then if isLeap year then 29 else 28
  else if month = 4 ∨ month = 6 ∨ month = 9 ∨ month = 11 then 30
  else 31

def Date.next (d : Date) : Date :=
  if d.day < daysIn d.year d.month then { d with day := d.day + 1 }
  else if d.month < 12 then ⟨d.year, d.month + 1, 1⟩
  else ⟨d.year + 1, 1, 1⟩

/-- The date so many days after the first of January 1970. -/
def dateOf : Nat → Date
  | 0 => ⟨1970, 1, 1⟩
  | days + 1 => (dateOf days).next

def Date.Before (d e : Date) : Prop :=
  d.year < e.year ∨ d.year = e.year ∧ (d.month < e.month ∨ d.month = e.month ∧ d.day < e.day)

private theorem Date.Before.trans {d e f : Date} (first : d.Before e) (second : e.Before f) :
    d.Before f := by
  unfold Date.Before at *
  omega

private theorem Date.before_next (d : Date) : d.Before d.next := by
  unfold Date.next Date.Before
  split
  · dsimp only
    omega
  · split
    · dsimp only
      omega
    · dsimp only
      omega

private theorem dateOf_before {a b : Nat} (lower : a < b) : (dateOf a).Before (dateOf b) := by
  induction lower with
  | refl => exact (dateOf a).before_next
  | step _ ih => exact ih.trans (Date.before_next _)

private theorem dateOf_year_mono {a b : Nat} (le : a ≤ b) : (dateOf a).year ≤ (dateOf b).year := by
  rcases Nat.eq_or_lt_of_le le with rfl | lower
  · exact Nat.le_refl _
  · have before := dateOf_before lower
    unfold Date.Before at before
    omega

private theorem daysIn_le (year month : Nat) : daysIn year month ≤ 31 := by
  unfold daysIn
  split
  · split <;> omega
  · split <;> omega

theorem dateOf_small (days : Nat) : (dateOf days).month ≤ 12 ∧ (dateOf days).day ≤ 31 := by
  induction days with
  | zero => decide
  | succ days ih =>
      have most := daysIn_le (dateOf days).year (dateOf days).month
      rw [dateOf, Date.next]
      split
      · dsimp only
        omega
      · split
        · dsimp only
          omega
        · dsimp only
          omega

/-! Time stamps. -/

def yearOf (t : Nat) : Nat := (dateOf (t / 86400)).year

/-- A second since 1970 in the form yyyymmddThhmmssZ. -/
def stamp (t : Nat) : List Char :=
  let d := dateOf (t / 86400)
  padded 4 d.year ++ (padded 2 d.month ++ (padded 2 d.day ++ ('T' ::
    (padded 2 (t / 3600 % 24) ++ (padded 2 (t / 60 % 60) ++ (padded 2 (t % 60) ++ ['Z']))))))

theorem yearOf_mono {t u : Nat} (le : t ≤ u) : yearOf t ≤ yearOf u :=
  dateOf_year_mono (Nat.div_le_div_right le)

theorem stamp_lt {t u : Nat} (lower : t < u) (era : yearOf u < 10000) : stamp t < stamp u := by
  have small := dateOf_small (u / 86400)
  unfold stamp
  dsimp only
  have days : t / 86400 < u / 86400 ∨ t / 86400 = u / 86400 := by omega
  rcases days with earlier | same
  · have before := dateOf_before earlier
    refine padded_lt (by decide) era ?_
    rcases before with year | ⟨year, month | ⟨month, day⟩⟩
    · exact .inl year
    · exact .inr ⟨year, padded_lt (by decide) (by omega) (.inl month)⟩
    · refine .inr ⟨year, padded_lt (by decide) (by omega) (.inr ⟨month, ?_⟩)⟩
      exact padded_lt (by decide) (by omega) (.inl day)
  · rw [same]
    apply List.append_left_lt
    apply List.append_left_lt
    apply List.append_left_lt
    apply List.cons_lt_cons_iff.mpr
    refine .inr ⟨rfl, padded_lt (by decide) (by omega) ?_⟩
    by_cases hour : t / 3600 % 24 < u / 3600 % 24
    · exact .inl hour
    · refine .inr ⟨by omega, padded_lt (by decide) (by omega) ?_⟩
      by_cases minute : t / 60 % 60 < u / 60 % 60
      · exact .inl minute
      · refine .inr ⟨by omega, padded_lt (by decide) (by omega) (.inl ?_)⟩
        omega

private theorem stamp_le_iff {t u : Nat} (era : yearOf t < 10000) (era' : yearOf u < 10000) :
    stamp t ≤ stamp u ↔ t ≤ u := by
  constructor
  · intro le
    by_contra later
    exact absurd (stamp_lt (Nat.not_le.mp later) era) (not_lt.mpr le)
  · intro le
    rcases Nat.eq_or_lt_of_le le with rfl | lower
    · exact le_refl _
    · exact le_of_lt (stamp_lt lower era')

theorem stamp_injective {t u : Nat} (era : yearOf t < 10000) (era' : yearOf u < 10000)
    (same : stamp t = stamp u) : t = u :=
  Nat.le_antisymm ((stamp_le_iff era era').mp (le_of_eq same))
    ((stamp_le_iff era' era).mp (le_of_eq same.symm))

example : String.ofList (stamp 68213107) = "19720229T120507Z" := by decide +kernel

end L3Firewall.Foundation.Calendar
