import Mathlib.Order.Basic
import Mathlib.Data.List.Basic

/-!
# Streaks, and clocks that measure them

An observer records, at increasing times, the items it finds in some condition.  A
streak of an item is a final stretch of the record in which it was found each time.
To know how long a streak lasts one keeps a clock for each item, started when the
item is found, and the question is when the clock may be left alone.

`startClock` starts the clock of an item once and never resets it.  It measures
streaks as long as an item with a clock is only found again by the next observation
(`Clocked.snoc`): a gap goes unnoticed.
-/

universe u v

namespace Shellius.Lib

/-- What was found at a time. -/
structure Observation (τ : Type u) (ι : Type v) where
  time : τ
  items : List ι
deriving DecidableEq

variable {τ : Type u} {ι : Type v}

/-- The last observation found the item. -/
def FoundLast (history : List (Observation τ ι)) (i : ι) : Prop :=
  ∃ o ∈ history.getLast?, i ∈ o.items

instance [DecidableEq ι] (history : List (Observation τ ι)) (i : ι) :
    Decidable (FoundLast history i) :=
  match h : history.getLast? with
  | none => .isFalse fun ⟨o, ho, _⟩ ↦ by rw [h] at ho; cases ho
  | some o => decidable_of_iff (i ∈ o.items)
      ⟨fun hi ↦ ⟨o, h, hi⟩, fun ⟨o', ho', hi⟩ ↦ by rw [h] at ho'; cases ho'; exact hi⟩

theorem foundLast_concat {history : List (Observation τ ι)} {o : Observation τ ι} {i : ι} :
    FoundLast (history ++ [o]) i ↔ i ∈ o.items := by
  unfold FoundLast
  rw [List.getLast?_concat]
  exact ⟨fun ⟨o', ho', hi⟩ ↦ by cases ho'; exact hi, fun hi ↦ ⟨o, rfl, hi⟩⟩

/-- Clocks that are started when an item is first found and never reset. -/
def startClock [DecidableEq ι] (clock : ι → Option τ) (o : Observation τ ι) (i : ι) : Option τ :=
  if i ∈ o.items then some ((clock i).getD o.time) else clock i

section

variable [LE τ] {history : List (Observation τ ι)} {o : Observation τ ι} {i : ι} {t : τ}

/-- A streak of the item began with an observation at the time. -/
def StreakSince (history : List (Observation τ ι)) (i : ι) (t : τ) : Prop :=
  (∃ o ∈ history, o.time = t) ∧ ∀ o ∈ history, t ≤ o.time → i ∈ o.items

theorem StreakSince.snoc (h : StreakSince history i t) (hi : i ∈ o.items) :
    StreakSince (history ++ [o]) i t := by
  obtain ⟨⟨b, hb, rfl⟩, hall⟩ := h
  refine ⟨⟨b, List.mem_append_left _ hb, rfl⟩, fun o' ho' hle ↦ ?_⟩
  rcases List.mem_append.mp ho' with ho' | ho'
  · exact hall o' ho' hle
  · rw [List.mem_singleton.mp ho']
    exact hi

/-- The clocks of the items last found tell since when. -/
def Clocked (history : List (Observation τ ι)) (clock : ι → Option τ) : Prop :=
  ∀ i t, clock i = some t → FoundLast history i → StreakSince history i t

theorem Clocked.mono {clock clock' : ι → Option τ} (h : Clocked history clock)
    (hsub : ∀ i t, clock' i = some t → clock i = some t) : Clocked history clock' :=
  fun i t hclock ↦ h i t (hsub i t hclock)

end

section

variable [Preorder τ] {history : List (Observation τ ι)} {o : Observation τ ι} {i : ι}

theorem streakSince_start (hlater : ∀ o' ∈ history, o'.time < o.time) (hi : i ∈ o.items) :
    StreakSince (history ++ [o]) i o.time := by
  refine ⟨⟨o, by simp, rfl⟩, fun o' ho' hle ↦ ?_⟩
  rcases List.mem_append.mp ho' with ho' | ho'
  · exact absurd (lt_of_le_of_lt hle (hlater o' ho')) (lt_irrefl _)
  · rw [List.mem_singleton.mp ho']
    exact hi

theorem Clocked.snoc [DecidableEq ι] {clock : ι → Option τ} (h : Clocked history clock)
    (hlater : ∀ o' ∈ history, o'.time < o.time)
    (hcont : ∀ i ∈ o.items, clock i = none ∨ FoundLast history i) :
    Clocked (history ++ [o]) (startClock clock o) := by
  intro i t hclock hlast
  have hi := foundLast_concat.mp hlast
  rw [startClock, if_pos hi] at hclock
  cases hold : clock i with
  | none =>
    rw [hold] at hclock
    obtain rfl := Option.some.inj hclock
    exact streakSince_start hlater hi
  | some t' =>
    rw [hold] at hclock
    obtain rfl := Option.some.inj hclock
    rcases hcont i hi with hnone | hlast'
    · rw [hold] at hnone
      cases hnone
    · exact (h i t' hold hlast').snoc hi

end

end Shellius.Lib
