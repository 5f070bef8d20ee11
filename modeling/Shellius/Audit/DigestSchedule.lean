import Mathlib.Data.List.Basic
import Mathlib.Tactic.Common

/-!
# When a digest is due

`services/digestSchedule.js`.  A schedule names an hour of the day, and perhaps a
day of the week; everything is in UTC, so that a day is a day.  `Occurs` says which
instants it means, and `previousOccurrence_spec` that `previousOccurrence` finds the
latest of them that is not in the future.
-/

namespace Shellius.DigestSchedule

/-- `HOUR_MS` -/
def hourMs : Int := 60 * 60 * 1000

/-- `DAY_MS` -/
def dayMs : Int := 24 * hourMs

/-! ## Schedules -/

/-- The settings as they are stored.  A number is what `Number` makes of it, if there
is something and that is an integer. -/
structure StoredSchedule where
  schedule : Option String
  hour : Option Int
  dayOfWeek : Option Int

/-- A schedule; it is weekly if it has a day, where 0 is Sunday. -/
structure Schedule where
  hour : Fin 24
  dayOfWeek : Option (Fin 7)

/-- A number from `0` to `n`, or else a default. -/
def clampTo (n : Nat) (default : Fin (n + 1)) (x : Option Int) : Fin (n + 1) :=
  match x with
  | none => default
  | some x =>
    if h : 0 ≤ x ∧ x ≤ n then ⟨x.toNat, by omega⟩ else default

def normalizeSchedule (settings : StoredSchedule) : Schedule where
  hour := clampTo 23 8 settings.hour
  dayOfWeek :=
    if settings.schedule = some "weekly" then some (clampTo 6 1 settings.dayOfWeek) else none

/-! ## Occurrences -/

/-- The day of an instant, counted from the epoch. -/
def dayOf (t : Int) : Int := t / dayMs

/-- `getUTCDay`; the epoch was a Thursday. -/
def utcDay (t : Int) : Int := (dayOf t + 4) % 7

def todayAtHour (s : Schedule) (t : Int) : Int := dayOf t * dayMs + (s.hour : Int) * hourMs

def previousOccurrence (s : Schedule) (t : Int) : Int :=
  match s.dayOfWeek with
  | none => if todayAtHour s t ≤ t then todayAtHour s t else todayAtHour s t - dayMs
  | some day =>
    match (List.range 8).find? fun back : Nat ↦
      todayAtHour s t - back * dayMs ≤ t ∧ utcDay (todayAtHour s t - back * dayMs) = day with
    | some back => todayAtHour s t - back * dayMs
    | none => todayAtHour s t - 7 * dayMs

/-- The schedule means this instant. -/
def Occurs (s : Schedule) (t : Int) : Prop :=
  t = todayAtHour s t ∧ ∀ day, s.dayOfWeek = some day → utcDay t = day

variable {s : Schedule} {t u : Int}

theorem hour_lt : 0 ≤ (s.hour : Int) * hourMs ∧ (s.hour : Int) * hourMs < dayMs := by
  have h := s.hour.isLt
  simp only [hourMs, dayMs]
  omega

theorem dayOf_todayAtHour (back : Int) :
    dayOf (todayAtHour s t - back * dayMs) = dayOf t - back := by
  have h := hour_lt (s := s)
  simp only [todayAtHour, dayOf, dayMs, hourMs] at h ⊢
  omega

theorem utcDay_todayAtHour (back : Int) :
    utcDay (todayAtHour s t - back * dayMs) = (dayOf t - back + 4) % 7 := by
  rw [utcDay, dayOf_todayAtHour]

theorem dayOf_spec : dayOf t * dayMs ≤ t ∧ t < dayOf t * dayMs + dayMs := by
  simp only [dayOf, dayMs, hourMs]
  omega

theorem occurs_todayAtHour (back : Int)
    (h : ∀ day, s.dayOfWeek = some day → utcDay (todayAtHour s t - back * dayMs) = day) :
    Occurs s (todayAtHour s t - back * dayMs) := by
  refine ⟨?_, h⟩
  conv_rhs => rw [todayAtHour, dayOf_todayAtHour]
  rw [todayAtHour, Int.sub_mul]
  omega

theorem todayAtHour_le {back : Int} (h : 1 ≤ back) : todayAtHour s t - back * dayMs ≤ t := by
  have hhour := hour_lt (s := s)
  have ht := dayOf_spec (t := t)
  have hback : 1 * dayMs ≤ back * dayMs := Int.mul_le_mul_of_nonneg_right h (by decide)
  simp only [todayAtHour]
  omega

theorem Occurs.exists_back (hu : Occurs s u) (hle : u ≤ t) :
    ∃ back : Nat, u = todayAtHour s t - back * dayMs := by
  have hdays : dayOf u ≤ dayOf t := Int.ediv_le_ediv (by decide) hle
  refine ⟨(dayOf t - dayOf u).toNat, ?_⟩
  have hhour := hu.1
  simp only [todayAtHour] at hhour ⊢
  rw [Int.toNat_of_nonneg (by omega), Int.sub_mul]
  omega

theorem todayAtHour_anti {back back' : Nat} (h : back ≤ back') :
    todayAtHour s t - back' * dayMs ≤ todayAtHour s t - back * dayMs := by
  have hmul : (back : Int) * dayMs ≤ back' * dayMs :=
    Int.mul_le_mul_of_nonneg_right (by omega) (by decide)
  omega

theorem exists_back_utcDay (day : Fin 7) : ∃ back : Nat, back < 8 ∧
    todayAtHour s t - back * dayMs ≤ t ∧ utcDay (todayAtHour s t - back * dayMs) = day := by
  have hday := day.isLt
  by_cases h : (dayOf t + 4 - day) % 7 = 0
  · refine ⟨7, by omega, todayAtHour_le (by omega), ?_⟩
    rw [utcDay_todayAtHour]
    omega
  · refine ⟨((dayOf t + 4 - day) % 7).toNat, by omega, todayAtHour_le (by omega), ?_⟩
    rw [utcDay_todayAtHour]
    omega

/-- **`previousOccurrence` is the latest occurrence that is not in the future.** -/
theorem previousOccurrence_spec : Occurs s (previousOccurrence s t) ∧ previousOccurrence s t ≤ t ∧
    ∀ u, Occurs s u → u ≤ t → u ≤ previousOccurrence s t := by
  unfold previousOccurrence
  cases hs : s.dayOfWeek with
  | none =>
    have hoccurs : ∀ back : Int, Occurs s (todayAtHour s t - back * dayMs) := fun back ↦
      occurs_todayAtHour back fun day hd ↦ by rw [hs] at hd; cases hd
    dsimp only
    split
    · rename_i hle
      refine ⟨by simpa using hoccurs 0, hle, fun u hu hut ↦ ?_⟩
      obtain ⟨back, rfl⟩ := hu.exists_back hut
      simpa using todayAtHour_anti (s := s) (t := t) (Nat.zero_le back)
    · rename_i hgt
      have hone : todayAtHour s t - 1 * dayMs ≤ t := todayAtHour_le (Int.le_refl 1)
      refine ⟨by simpa using hoccurs 1, by simpa using hone, fun u hu hut ↦ ?_⟩
      obtain ⟨back, rfl⟩ := hu.exists_back hut
      have hpos : 1 ≤ back := by
        by_contra hzero
        obtain rfl : back = 0 := by omega
        exact hgt (by simpa using hut)
      simpa using todayAtHour_anti (s := s) (t := t) hpos
  | some day =>
    dsimp only
    split
    · rename_i back hfind
      obtain ⟨hback, -, hno⟩ := List.find?_range_eq_some.mp hfind
      obtain ⟨hle, hday⟩ := of_decide_eq_true hback
      refine ⟨occurs_todayAtHour back fun d hd ↦ ?_, hle, fun u hu hut ↦ ?_⟩
      · obtain rfl := Option.some.inj (hs.symm.trans hd)
        exact hday
      · obtain ⟨back', rfl⟩ := hu.exists_back hut
        -- the loop would have stopped there
        refine todayAtHour_anti (Nat.le_of_not_lt fun hlt ↦ ?_)
        have hstop := hno back' hlt
        rw [Bool.not_eq_true', decide_eq_false_iff_not] at hstop
        exact hstop ⟨hut, hu.2 day hs⟩
    · rename_i hnone
      obtain ⟨back, hlt, hle, hday⟩ := exists_back_utcDay (s := s) (t := t) day
      have hstop := List.find?_range_eq_none.mp hnone back hlt
      rw [Bool.not_eq_true', decide_eq_false_iff_not] at hstop
      exact absurd ⟨hle, hday⟩ hstop

theorem previousOccurrence_le : previousOccurrence s t ≤ t := previousOccurrence_spec.2.1

/-! ## Digests that are due -/

/-- The longest period a digest covers. -/
def maxWindowMs : Int := 31 * dayMs

/-- What `digestDue` answers. -/
structure DigestWindow where
  due : Bool
  fromTime : Int
  toTime : Int

def digestDue (settings : Schedule) (anchor : Option Int) (now : Int) : DigestWindow :=
  let prev := previousOccurrence settings now
  let fromTime := anchor.getD (prev - dayMs)
  if now < fromTime then ⟨false, fromTime, now⟩
  else if prev ≤ fromTime then ⟨false, fromTime, now⟩
  else if maxWindowMs < now - fromTime then ⟨true, now - maxWindowMs, now⟩
  else ⟨true, fromTime, now⟩

theorem digestDue_spec {anchor now : Int} (h : (digestDue s (some anchor) now).due = true) :
    (digestDue s (some anchor) now).toTime = now ∧ anchor < previousOccurrence s now ∧
      ((digestDue s (some anchor) now).fromTime = anchor ∨
        anchor < (digestDue s (some anchor) now).fromTime ∧
          (digestDue s (some anchor) now).fromTime = now - maxWindowMs) := by
  simp only [digestDue, Option.getD_some] at h ⊢
  split at h
  · cases h
  · rename_i hfuture
    rw [if_neg hfuture]
    split at h
    · cases h
    · rename_i hprev
      rw [if_neg hprev]
      split
      · rename_i hlong
        exact ⟨rfl, Int.not_le.mp hprev, .inr ⟨by dsimp only; omega, rfl⟩⟩
      · exact ⟨rfl, Int.not_le.mp hprev, .inl rfl⟩

end Shellius.DigestSchedule
