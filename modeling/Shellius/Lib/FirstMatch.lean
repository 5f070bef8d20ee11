import Mathlib.Data.List.Basic
import Mathlib.Tactic.TypeStar

/-!
# Ordered rules, of which the first that applies decides

A rule applies to some points and gives a verdict, and for a point the first rule that applies
decides.  Whether every point gets one of two verdicts is seen from the rules alone: the rules
with the other verdict are shadowed by rules before them, and what is left over is covered.
-/

universe u v

namespace Shellius.Lib

variable {ρ : Type u} {χ : Type v} (applies : ρ → χ → Bool) (denies : ρ → Bool)

/-- The verdict of the first rule that applies. -/
def firstMatch (rules : List ρ) (x : χ) : Option Bool := (rules.find? (applies · x)).map denies

/-- Whether a point is denied, when `byDefault` says so of what no rule applies to. -/
def deniedByRules (byDefault : Bool) (rules : List ρ) (x : χ) : Bool :=
  (firstMatch applies denies rules x).getD byDefault

variable {applies denies} {rules : List ρ} {byDefault b : Bool} {x : χ}

theorem firstMatch_cons (r : ρ) (rules : List ρ) :
    firstMatch applies denies (r :: rules) x =
      if applies r x = true then some (denies r) else firstMatch applies denies rules x := by
  unfold firstMatch
  split
  · rename_i happlies
    have hfind : (r :: rules).find? (applies · x) = some r := List.find?_cons_of_pos happlies
    rw [hfind]
    rfl
  · rename_i happlies
    have hfind : (r :: rules).find? (applies · x) = rules.find? (applies · x) :=
      List.find?_cons_of_neg happlies
    rw [hfind]

theorem firstMatch_eq_none_iff :
    firstMatch applies denies rules x = none ↔ ∀ r ∈ rules, applies r x = false := by
  unfold firstMatch
  rw [Option.map_eq_none_iff, List.find?_eq_none]
  simp only [Bool.not_eq_true]

theorem firstMatch_eq_some_iff :
    firstMatch applies denies rules x = some b ↔ ∃ pre r post, rules = pre ++ r :: post ∧
      applies r x = true ∧ denies r = b ∧ ∀ r' ∈ pre, applies r' x = false := by
  unfold firstMatch
  rw [Option.map_eq_some_iff]
  constructor
  · rintro ⟨r, hfind, hb⟩
    obtain ⟨happlies, pre, post, hrules, hpre⟩ := List.find?_eq_some_iff_append.mp hfind
    exact ⟨pre, r, post, hrules, happlies, hb, fun r' hr' ↦ by simpa using hpre r' hr'⟩
  · rintro ⟨pre, r, post, hrules, happlies, hb, hpre⟩
    refine ⟨r, List.find?_eq_some_iff_append.mpr ⟨happlies, pre, post, hrules, ?_⟩, hb⟩
    intro r' hr'
    rw [hpre r' hr']
    rfl

/-- Every point to which a rule that allows applies is denied by a rule before it. -/
def Shadowed (applies : ρ → χ → Bool) (denies : ρ → Bool) (rules : List ρ) : Prop :=
  ∀ pre r post, rules = pre ++ r :: post → denies r = false → ∀ x, applies r x = true →
    ∃ r' ∈ pre, denies r' = true ∧ applies r' x = true

/-- Everything is denied exactly if the rules that allow are shadowed, and what no rule applies to
is denied, or there is nothing to which no denying rule applies. -/
theorem deniedByRules_forall_iff :
    (∀ x, deniedByRules applies denies byDefault rules x = true) ↔
      Shadowed applies denies rules ∧
        (byDefault = true ∨ ∀ x, ∃ r ∈ rules, denies r = true ∧ applies r x = true) := by
  constructor
  · intro h
    constructor
    · rintro pre r post rfl hr x hx
      have hx' := h x
      unfold deniedByRules firstMatch at hx'
      rw [List.find?_append] at hx'
      cases hpre : pre.find? (applies · x) with
      | none =>
        -- the rule that allows would decide
        have hfind : (r :: post).find? (applies · x) = some r := List.find?_cons_of_pos hx
        rw [hpre, Option.none_or, hfind] at hx'
        exact absurd (hr.symm.trans hx') Bool.false_ne_true
      | some r' =>
        rw [hpre, Option.some_or] at hx'
        have happlies := List.find?_some hpre
        exact ⟨r', List.mem_of_find?_eq_some hpre, hx', happlies⟩
    · by_contra hnot
      push Not at hnot
      obtain ⟨hdefault, x, hx⟩ := hnot
      have hdenied := h x
      unfold deniedByRules at hdenied
      cases hverdict : firstMatch applies denies rules x with
      | none =>
        rw [hverdict] at hdenied
        exact hdefault hdenied
      | some b =>
        rw [hverdict] at hdenied
        obtain ⟨pre, r, post, rfl, happlies, hb, -⟩ := firstMatch_eq_some_iff.mp hverdict
        exact hx r (by simp) (hb.trans hdenied) happlies
  · rintro ⟨hshadowed, hrest⟩ x
    unfold deniedByRules
    cases hverdict : firstMatch applies denies rules x with
    | none =>
      obtain hdefault | hcovered := hrest
      · exact hdefault
      · obtain ⟨r, hr, -, happlies⟩ := hcovered x
        rw [firstMatch_eq_none_iff.mp hverdict r hr] at happlies
        cases happlies
    | some b =>
      obtain ⟨pre, r, post, hrules, happlies, hb, hpre⟩ := firstMatch_eq_some_iff.mp hverdict
      cases b with
      | true => rfl
      | false =>
        obtain ⟨r', hr', -, happlies'⟩ := hshadowed pre r post hrules hb x happlies
        rw [hpre r' hr'] at happlies'
        cases happlies'

end Shellius.Lib
