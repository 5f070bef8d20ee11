import Mathlib.Data.List.Basic

/-!
# References by name

A store holds references by name and resolves a name when it is used, to whatever
bears it then.  `Links` keeps beside the references in place and what each
resolves to now what each resolved to when it was written; the links are `Sound`
when the two agree and are never nothing.  After a step that writes some
references, the links are sound just when every reference resolves and those
that were not written resolve as before.
-/

universe u v

namespace Shellius.Lib

/-- References, what each resolves to, and what it resolved to when written. -/
structure Links (ρ : Type u) (ε : Type v) where
  refs : List ρ
  resolve : ρ → Option ε
  recorded : ρ → Option ε

namespace Links

variable {ρ : Type u} {ε : Type v} [DecidableEq ρ]

/-- Every reference resolves to what it resolved to when it was written. -/
def Sound (l : Links ρ ε) : Prop :=
  ∀ r ∈ l.refs, (l.resolve r).isSome ∧ l.resolve r = l.recorded r

/-- The references after a step that writes those which are new and those that
`written` holds of. -/
def advance (l : Links ρ ε) (written : ρ → Bool) (refs : List ρ) (resolve : ρ → Option ε) :
    Links ρ ε where
  refs := refs
  resolve := resolve
  recorded r := if r ∈ l.refs && !written r then l.recorded r else resolve r

variable {l : Links ρ ε} {written : ρ → Bool} {refs : List ρ} {resolve : ρ → Option ε}

theorem sound_advance_iff (h : l.Sound) :
    (l.advance written refs resolve).Sound ↔
      ∀ r ∈ refs, (resolve r).isSome ∧
        (r ∈ l.refs → written r = false → resolve r = l.resolve r) := by
  refine forall₂_congr fun r _ ↦ and_congr_right fun _ ↦ ?_
  dsimp only [advance]
  by_cases hold : r ∈ l.refs
  · cases hw : written r with
    | true => simp
    | false => simp [hold, (h r hold).2]
  · simp [hold]

theorem Sound.advance (h : l.Sound)
    (hresolve : ∀ r ∈ refs, (l.resolve r).isSome → resolve r = l.resolve r)
    (hrefs : ∀ r ∈ refs, r ∈ l.refs ∨ (l.resolve r).isSome) :
    (l.advance written refs resolve).Sound := by
  refine (sound_advance_iff h).mpr fun r hr ↦ ?_
  have hsome : (l.resolve r).isSome := (hrefs r hr).elim (fun hold ↦ (h r hold).1) id
  rw [hresolve r hr hsome]
  exact ⟨hsome, fun _ _ ↦ rfl⟩

theorem sound_advance_remove_iff {gone : ρ → Bool} (h : l.Sound) (hrefs : ∀ r ∈ refs, r ∈ l.refs)
    (hgone : ∀ r, gone r = true → resolve r = none)
    (hkept : ∀ r, gone r = false → resolve r = l.resolve r) :
    (l.advance written refs resolve).Sound ↔ ∀ r ∈ refs, gone r = false := by
  rw [sound_advance_iff h]
  refine forall₂_congr fun r hr ↦ ?_
  cases hg : gone r with
  | true => simp [hgone r hg]
  | false =>
    rw [hkept r hg]
    simp [(h r (hrefs r hr)).1]

end Links

end Shellius.Lib
