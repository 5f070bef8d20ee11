import Mathlib.Tactic.TypeStar

/-!
# Actions that write and may fail

A service reads a store, writes to it and may give up half way, and what it has written by then
stays written.  Such an action is a computation of `EStateM`, whose failures keep the state they
happened in.

`Ensures I x Q s` says how `x` ends when it is run from `s`: well, with `Q`, or with a failure
that leaves a state with `I`.  There is one rule for each way to build an action; the rules are
equivalences, so that a goal about an action can be rewritten to one about the values it reads.
-/

namespace Shellius.Lib

/-- An action on a store `σ` that may fail with `ε`. -/
abbrev Action (σ ε α : Type) := EStateM ε σ α

section

variable {σ ε α β : Type}

namespace Action

/-- Fail unless the condition holds. -/
def check (c : Prop) [Decidable c] (e : ε) : Action σ ε Unit := if c then pure () else throw e

/-- Fail unless there is something. -/
def orFail (o : Option α) (e : ε) : Action σ ε α :=
  match o with
  | some a => pure a
  | none => throw e

/-- A computation that does not look at the store. -/
def lift (x : Except ε α) : Action σ ε α :=
  match x with
  | .ok a => pure a
  | .error e => throw e

/-- The outcome of an action as a value; what it has written stays. -/
def attempt (x : Action σ ε α) : Action σ ε (Except ε α) := fun s ↦
  match x s with
  | .ok a t => .ok (.ok a) t
  | .error e t => .ok (.error e) t

/-- An action on a part of the store. -/
def zoom {τ : Type} (get : σ → τ) (put : τ → σ → σ) (x : Action τ ε α) : Action σ ε α := fun s ↦
  match x (get s) with
  | .ok a t => .ok a (put t s)
  | .error e t => .error e (put t s)

/-- The action, without its result. -/
def forget (x : Action σ ε α) : Action σ ε Unit := x >>= fun _ ↦ pure ()

/-- The store after an action, whichever way it ends. -/
def after (x : Action σ ε α) (s : σ) : σ :=
  match x s with
  | .ok _ t => t
  | .error _ t => t

end Action

open Shellius.Lib.Action

/-- Run from a state, the action ends well with `Q` or fails with `I`. -/
def Ensures (I : σ → Prop) (x : Action σ ε α) (Q : α → σ → Prop) (s : σ) : Prop :=
  match x s with
  | .ok a t => Q a t
  | .error _ t => I t

variable {I J : σ → Prop} {x : Action σ ε α} {f : α → Action σ ε β} {Q R : α → σ → Prop}
  {P : β → σ → Prop} {s : σ}

theorem Ensures.mono (h : Ensures I x Q s) (hI : ∀ t, I t → J t) (hQ : ∀ a t, Q a t → R a t) :
    Ensures J x R s := by
  unfold Ensures at h ⊢
  split at h
  · exact hQ _ _ h
  · exact hI _ h

theorem ensures_of_forall (hI : ∀ t, I t) (hQ : ∀ a t, Q a t) : Ensures I x Q s := by
  unfold Ensures
  split
  · exact hQ _ _
  · exact hI _

theorem Ensures.after (h : Ensures I x (fun _ ↦ I) s) : I (x.after s) := by
  unfold Ensures at h
  unfold Action.after
  split at h
  · exact h
  · exact h

theorem Ensures.cases (h : Ensures I x Q s) :
    (∃ a t, x s = .ok a t ∧ Q a t) ∨ ∃ e t, x s = .error e t ∧ I t := by
  unfold Ensures at h
  cases hx : x s with
  | ok a t =>
    rw [hx] at h
    exact .inl ⟨a, t, rfl, h⟩
  | error e t =>
    rw [hx] at h
    exact .inr ⟨e, t, rfl, h⟩

theorem after_bind_of_ok {t : σ} {a : α} (h : x s = .ok a t) : (x >>= f).after s = (f a).after t := by
  show (match EStateM.bind x f s with | .ok _ u => u | .error _ u => u) = _
  unfold EStateM.bind
  rw [h]
  rfl

theorem ensures_pure {a : α} : Ensures I (pure a : Action σ ε α) Q s ↔ Q a s := Iff.rfl

theorem ensures_throw {e : ε} : Ensures I (throw e : Action σ ε α) Q s ↔ I s := Iff.rfl

theorem ensures_bind :
    Ensures I (x >>= f) P s ↔ Ensures I x (fun a ↦ Ensures I (f a) P) s := by
  show (match EStateM.bind x f s with | .ok a t => P a t | .error _ t => I t) ↔
    match x s with | .ok a t => Ensures I (f a) P t | .error _ t => I t
  unfold EStateM.bind
  cases x s with
  | ok a t => exact Iff.rfl
  | error e t => exact Iff.rfl

theorem ensures_forget {Q : Unit → σ → Prop} :
    Ensures I x.forget Q s ↔ Ensures I x (fun _ ↦ Q ()) s := ensures_bind

theorem ensures_get {Q : σ → σ → Prop} : Ensures I (get : Action σ ε σ) Q s ↔ Q s s := Iff.rfl

theorem ensures_set {t : σ} {Q : PUnit → σ → Prop} :
    Ensures I (set t : Action σ ε PUnit) Q s ↔ Q ⟨⟩ t := Iff.rfl

theorem ensures_modify {g : σ → σ} {Q : PUnit → σ → Prop} :
    Ensures I (modify g : Action σ ε PUnit) Q s ↔ Q ⟨⟩ (g s) := Iff.rfl

theorem ensures_check {c : Prop} [Decidable c] {e : ε} {Q : Unit → σ → Prop} :
    Ensures I (check c e) Q s ↔ (c → Q () s) ∧ (¬ c → I s) := by
  unfold check
  split
  · rename_i hc
    exact ⟨fun h ↦ ⟨fun _ ↦ h, fun hnc ↦ absurd hc hnc⟩, fun h ↦ h.1 hc⟩
  · rename_i hnc
    exact ⟨fun h ↦ ⟨fun hc ↦ absurd hc hnc, fun _ ↦ h⟩, fun h ↦ h.2 hnc⟩

theorem ensures_orFail {o : Option α} {e : ε} :
    Ensures I (orFail o e) Q s ↔ (∀ a, o = some a → Q a s) ∧ (o = none → I s) := by
  cases o with
  | none => simp [orFail, ensures_throw]
  | some a => simp [orFail, ensures_pure]

theorem ensures_lift {r : Except ε α} :
    Ensures I (lift r) Q s ↔ (∀ a, r = .ok a → Q a s) ∧ ∀ e, r = .error e → I s := by
  cases r with
  | error e => simp [lift, ensures_throw]
  | ok a => simp [lift, ensures_pure]

theorem ensures_zoom {τ : Type} {get : σ → τ} {put : τ → σ → σ} {y : Action τ ε α}
    (h : Ensures (fun t ↦ I (put t s)) y (fun a t ↦ Q a (put t s)) (get s)) :
    Ensures I (zoom get put y) Q s := by
  unfold Ensures zoom at *
  split at h
  · rename_i he
    rw [he]
    exact h
  · rename_i he
    rw [he]
    exact h

end

end Shellius.Lib
