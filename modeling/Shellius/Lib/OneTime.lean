import Mathlib.Data.List.Count
import Mathlib.Data.List.Pairwise

/-!
# Secrets that work once

A history of a set of one-time secrets, newest entry first: a secret was
redeemed, or some secrets were withdrawn.  Either way they are *spent*, and a
history is `OneTime` if no secret in it is redeemed after it was spent.
-/

universe u

namespace Shellius.Lib

/-- What happened to a secret. -/
inductive Use (κ : Type u)
  | /-- Somebody presented it and was let in. -/
    redeemed (k : κ)
  | /-- From here on these are not to work any more. -/
    withdrawn (ks : List κ)
deriving DecidableEq

variable {κ : Type u}

/-- The entry is the end of the secret `k`. -/
def Use.Spends (k : κ) : Use κ → Prop
  | .redeemed j => j = k
  | .withdrawn ks => k ∈ ks

instance [DecidableEq κ] (k : κ) : DecidablePred (Use.Spends k)
  | .redeemed j => inferInstanceAs (Decidable (j = k))
  | .withdrawn ks => inferInstanceAs (Decidable (k ∈ ks))

/-- The secret `k` has been redeemed or withdrawn. -/
def Spent (log : List (Use κ)) (k : κ) : Prop := ∃ e ∈ log, e.Spends k

instance [DecidableEq κ] (log : List (Use κ)) : DecidablePred (Spent log) := fun k ↦
  inferInstanceAs (Decidable (∃ e ∈ log, e.Spends k))

/-- No secret is redeemed once it is spent. -/
def OneTime (log : List (Use κ)) : Prop :=
  log.Pairwise fun later earlier ↦ ∀ k, later = .redeemed k → ¬ earlier.Spends k

variable {log : List (Use κ)} {j k : κ} {ks : List κ}

@[simp] theorem not_spent_nil : ¬ Spent [] k := by simp [Spent]

@[simp] theorem spent_redeemed : Spent (.redeemed j :: log) k ↔ j = k ∨ Spent log k := by
  simp [Spent, Use.Spends]

@[simp] theorem spent_withdrawn : Spent (.withdrawn ks :: log) k ↔ k ∈ ks ∨ Spent log k := by
  simp [Spent, Use.Spends]

@[simp] theorem oneTime_nil : OneTime ([] : List (Use κ)) := List.Pairwise.nil

@[simp] theorem oneTime_redeemed :
    OneTime (.redeemed k :: log) ↔ ¬ Spent log k ∧ OneTime log := by
  rw [OneTime, List.pairwise_cons]
  refine and_congr_left' ⟨?_, ?_⟩
  · rintro h ⟨e, he, hs⟩
    exact h e he k rfl hs
  · intro h e he j hj hs
    cases hj
    exact h ⟨e, he, hs⟩

@[simp] theorem oneTime_withdrawn : OneTime (.withdrawn ks :: log) ↔ OneTime log := by
  rw [OneTime, List.pairwise_cons]
  refine and_iff_right ?_
  intro e _ k hk
  cases hk

theorem OneTime.count_le_one [DecidableEq κ] (h : OneTime log) :
    log.count (.redeemed k) ≤ 1 := by
  induction log with
  | nil => exact Nat.zero_le _
  | cons e log ih =>
    cases e with
    | withdrawn ks => simpa using ih (oneTime_withdrawn.mp h)
    | redeemed j =>
      obtain ⟨hs, h⟩ := oneTime_redeemed.mp h
      by_cases hj : j = k
      · subst hj
        have hno : log.count (.redeemed j) = 0 :=
          List.count_eq_zero.mpr fun hm ↦ hs ⟨_, hm, rfl⟩
        simp [hno]
      · have hne : (Use.redeemed j == Use.redeemed k) = false := by simpa using hj
        rw [List.count_cons, hne]
        exact ih h

end Shellius.Lib
