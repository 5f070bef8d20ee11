import Mathlib.Data.Finset.Card
import Mathlib.Data.Finset.Image

/-!
# Checks that may refuse

A service runs through a list of checks and then does its work.  Written with
`require` and `demand` in the `Except` monad, the checks stand in the order of
the program, and the three equivalences below take a successful run apart into
what each check found.

`firstFree` is the loop that looks for a name nobody has.
-/

universe u v

namespace Shellius.Lib

/-! ## Checks -/

section

variable {ε : Type u} {α β : Type v}

/-- Refuse unless the condition holds. -/
def require (c : Prop) [Decidable c] (e : ε) : Except ε PUnit.{v + 1} :=
  if c then .ok ⟨⟩ else .error e

/-- Refuse unless there is something. -/
def demand (o : Option α) (e : ε) : Except ε α :=
  match o with
  | some a => .ok a
  | none => .error e

@[simp] theorem require_eq_ok {c : Prop} [Decidable c] {e : ε} {u : PUnit.{v + 1}} :
    require c e = .ok u ↔ c := by
  unfold require
  split <;> simp_all

@[simp] theorem demand_eq_ok {o : Option α} {e : ε} {a : α} : demand o e = .ok a ↔ o = some a := by
  cases o <;> simp [demand]

@[simp] theorem bind_eq_ok {x : Except ε α} {f : α → Except ε β} {b : β} :
    (x >>= f) = .ok b ↔ ∃ a, x = .ok a ∧ f a = .ok b := by
  cases x with
  | error e => simp [bind, Except.bind]
  | ok a => simp [bind, Except.bind]

theorem map_eq_ok {x : Except ε α} {f : α → β} {b : β} :
    x.map f = .ok b ↔ ∃ a, x = .ok a ∧ f a = b := by
  cases x with
  | error e => simp [Except.map]
  | ok a => simp [Except.map]

@[simp] theorem pure_eq_ok {a b : α} : (pure a : Except ε α) = .ok b ↔ a = b := by
  simp [pure, Except.pure]

theorem toOption_eq_some {x : Except ε α} {a : α} : x.toOption = some a ↔ x = .ok a := by
  cases x with
  | error e => simp [Except.toOption]
  | ok b => simp [Except.toOption]

end

/-! ## The first free name -/

section

variable {α : Type u} [DecidableEq α]

/-- The first of `f i`, `f (i + 1)`, … that is not taken, among the first
`n + 1` of them. -/
def firstFreeFrom (taken : List α) (f : ℕ → α) : ℕ → ℕ → α
  | 0, i => f i
  | n + 1, i => if f i ∈ taken then firstFreeFrom taken f n (i + 1) else f i

/-- The first of `f 0`, `f 1`, … that is not taken. -/
def firstFree (taken : List α) (f : ℕ → α) : α := firstFreeFrom taken f taken.length 0

variable {taken : List α} {f : ℕ → α}

theorem mem_of_firstFreeFrom_mem {n i : ℕ} (h : firstFreeFrom taken f n i ∈ taken) :
    ∀ j, i ≤ j → j ≤ i + n → f j ∈ taken := by
  induction n generalizing i with
  | zero =>
    intro j hi hj
    obtain rfl : j = i := by omega
    exact h
  | succ n ih =>
    rw [firstFreeFrom] at h
    split at h
    · rename_i hi
      intro j hij hj
      obtain rfl | hlt := Nat.eq_or_lt_of_le hij
      · exact hi
      · exact ih h j hlt (by omega)
    · contradiction

theorem firstFree_notMem (hf : Function.Injective f) : firstFree taken f ∉ taken := by
  intro h
  have hall := mem_of_firstFreeFrom_mem h
  have hsub : (Finset.range (taken.length + 1)).image f ⊆ taken.toFinset := by
    intro a ha
    obtain ⟨j, hj, rfl⟩ := Finset.mem_image.mp ha
    have hj := Finset.mem_range.mp hj
    exact List.mem_toFinset.mpr (hall j (by omega) (by omega))
  have hcard := Finset.card_le_card hsub
  rw [Finset.card_image_of_injective _ hf, Finset.card_range] at hcard
  have hle := List.toFinset_card_le taken
  omega

end

end Shellius.Lib
