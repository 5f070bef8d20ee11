import Shellius.Lib.Checks

/-!
# Two runs of one computation

Two runs end alike when they fail with the same error or succeed with related results.  A
computation that is run on two related states is taken apart step by step: `Alike.bind` carries
the relation from one step to the next, `Alike.require` and `Alike.demand` are the steps.
-/

universe u v

namespace Shellius.Lib

variable {ε : Type u} {α β γ δ : Type v}

theorem ok_bind {a : α} {f : α → Except ε β} : (Except.ok a >>= f) = f a := rfl

/-- Both runs fail with one error, or both succeed and their results are related. -/
inductive Alike (R : α → β → Prop) : Except ε α → Except ε β → Prop
  | error (e : ε) : Alike R (.error e) (.error e)
  | ok {a : α} {b : β} : R a b → Alike R (.ok a) (.ok b)

namespace Alike

variable {R : α → β → Prop} {S : γ → δ → Prop} {x : Except ε α} {y : Except ε β}

theorem pure {a : α} {b : β} (h : R a b) : Alike (ε := ε) R (Pure.pure a) (Pure.pure b) := .ok h

theorem of_eq {x y : Except ε α} (h : x = y) : Alike Eq x y := by
  subst h
  cases x with
  | error e => exact .error e
  | ok a => exact .ok rfl

theorem eq {x y : Except ε α} (h : Alike Eq x y) : x = y := by
  cases h with
  | error e => rfl
  | ok hab => exact congrArg Except.ok hab

theorem bind {f : α → Except ε γ} {g : β → Except ε δ} (h : Alike R x y)
    (hfg : ∀ a b, R a b → Alike S (f a) (g b)) : Alike S (x >>= f) (y >>= g) := by
  cases h with
  | error e => exact .error e
  | ok hab => exact hfg _ _ hab

theorem bind_same {x : Except ε α} {f : α → Except ε γ} {g : α → Except ε δ}
    (hfg : ∀ a, x = .ok a → Alike S (f a) (g a)) : Alike S (x >>= f) (x >>= g) := by
  cases x with
  | error e => exact .error e
  | ok a => exact hfg a rfl

theorem map {f : α → γ} {g : β → δ} (h : Alike R x y) (hfg : ∀ a b, R a b → S (f a) (g b)) :
    Alike S (x.map f) (y.map g) := by
  cases h with
  | error e => exact .error e
  | ok hab => exact .ok (hfg _ _ hab)

theorem require {c c' : Prop} [Decidable c] [Decidable c'] {e : ε} (h : c ↔ c') :
    Alike (fun _ _ ↦ c) (require c e) (require c' e) := by
  by_cases hc : c
  · rw [Lib.require, Lib.require, if_pos hc, if_pos (h.mp hc)]
    exact .ok hc
  · rw [Lib.require, Lib.require, if_neg hc, if_neg (hc ∘ h.mpr)]
    exact .error e

theorem demand {o : Option α} {f : α → β} {e : ε} :
    Alike (fun a b ↦ o = some a ∧ b = f a) (demand o e) (demand (o.map f) e) := by
  cases o with
  | none => exact .error e
  | some a => exact .ok ⟨rfl, rfl⟩

end Alike

end Shellius.Lib
