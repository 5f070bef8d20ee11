import Mathlib.Data.List.Infix
import Shellius.Lib.Expiring

/-!
# Throttles

Things come up one after the other, and some of them are locked: such a thing takes a key for a
while, and is held back if the key is taken already.  What comes up at one instant cannot free a
key, so that of the things of one key that come up then one passes if the key was free before,
and none otherwise.
-/

universe u v w

namespace Shellius.Lib

/-- The keys that are taken, and what has passed so far. -/
structure Gate (α : Type u) (κ : Type v) (τ : Type w) where
  store : Expiring κ Unit τ := fun _ ↦ none
  passed : List α := []

namespace Gate

variable {α : Type u} {κ : Type v} {τ : Type w} [LinearOrder τ] [DecidableEq κ]

/-! ## One thing

`lock a` is the key that a thing takes and until when, `time a` the instant it comes up at. -/

section

variable (lock : α → Option (κ × τ)) (time : α → τ)

/-- The thing may pass: it takes no key, or one that is free. -/
def Open (g : Gate α κ τ) (a : α) : Prop := ∀ l ∈ lock a, g.store.get (time a) l.1 = none

instance (g : Gate α κ τ) (a : α) : Decidable (Open lock time g a) :=
  match h : lock a with
  | none => .isTrue fun l hl ↦ by
      rw [h] at hl
      cases hl
  | some l => decidable_of_iff (g.store.get (time a) l.1 = none) <| by
      constructor
      · intro hget l' hl'
        rw [h] at hl'
        cases hl'
        exact hget
      · intro hopen
        exact hopen l h

/-- The keys once the thing has passed. -/
def take (s : Expiring κ Unit τ) (a : α) : Expiring κ Unit τ :=
  match lock a with
  | none => s
  | some l => s.set l.1 () (some l.2)

/-- The thing comes up. -/
def offer (g : Gate α κ τ) (a : α) : Gate α κ τ :=
  if Open lock time g a then ⟨take lock g.store a, g.passed ++ [a]⟩ else g

/-- All of them come up. -/
def offers (g : Gate α κ τ) (as : List α) : Gate α κ τ := as.foldl (offer lock time) g

/-- Those of them that pass. -/
def passing (g : Gate α κ τ) : List α → List α
  | [] => []
  | a :: as =>
    if Open lock time g a then a :: passing (offer lock time g a) as
    else passing (offer lock time g a) as

end

variable {lock : α → Option (κ × τ)} {time : α → τ} {g : Gate α κ τ} {a b : α} {as : List α} {k : κ}

omit [DecidableEq κ] in
theorem open_of_lock_eq_none (h : lock a = none) : Open lock time g a := by
  intro l hl
  rw [h] at hl
  cases hl

omit [LinearOrder τ] in
theorem take_of_lock_eq_none {s : Expiring κ Unit τ} (h : lock a = none) : take lock s a = s := by
  rw [take, h]

omit [LinearOrder τ] in
theorem take_of_lock_eq_some {s : Expiring κ Unit τ} {l : κ × τ} (h : lock a = some l) :
    take lock s a = s.set l.1 () (some l.2) := by
  rw [take, h]

theorem offer_of_open (h : Open lock time g a) :
    offer lock time g a = ⟨take lock g.store a, g.passed ++ [a]⟩ := if_pos h

theorem offer_of_not_open (h : ¬ Open lock time g a) : offer lock time g a = g := if_neg h

@[simp] theorem offers_nil : offers lock time g [] = g := rfl

@[simp] theorem offers_cons :
    offers lock time g (a :: as) = offers lock time (offer lock time g a) as := rfl

theorem offers_append {bs : List α} :
    offers lock time g (as ++ bs) = offers lock time (offers lock time g as) bs :=
  List.foldl_append

omit [LinearOrder τ] in
theorem take_of_ne {s : Expiring κ Unit τ} (h : (lock a).map Prod.fst ≠ some k) :
    take lock s a k = s k := by
  unfold take
  cases hl : lock a with
  | none => rfl
  | some l =>
    have hne : k ≠ l.1 := by
      rintro rfl
      exact h (by rw [hl]; rfl)
    exact Expiring.set_of_ne hne

theorem passed_offers : (offers lock time g as).passed = g.passed ++ passing lock time g as := by
  induction as generalizing g with
  | nil => exact (List.append_nil _).symm
  | cons a as ih =>
    rw [offers_cons, ih, passing]
    by_cases h : Open lock time g a
    · rw [if_pos h, offer_of_open h, List.append_assoc, List.singleton_append]
    · rw [if_neg h, offer_of_not_open h]

theorem passing_append {bs : List α} : passing lock time g (as ++ bs) =
    passing lock time g as ++ passing lock time (offers lock time g as) bs := by
  induction as generalizing g with
  | nil => rfl
  | cons a as ih =>
    rw [List.cons_append, passing, passing, offers_cons]
    by_cases h : Open lock time g a
    · rw [if_pos h, if_pos h, ih, List.cons_append]
    · rw [if_neg h, if_neg h, ih]

theorem mem_passing_cons : b ∈ passing lock time g (a :: as) ↔
    b = a ∧ Open lock time g a ∨ b ∈ passing lock time (offer lock time g a) as := by
  rw [passing]
  by_cases h : Open lock time g a
  · rw [if_pos h, List.mem_cons, and_iff_left h]
  · rw [if_neg h, or_iff_right fun hb ↦ h hb.2]

theorem mem_of_mem_passing (h : b ∈ passing lock time g as) : b ∈ as := by
  induction as generalizing g with
  | nil => exact h
  | cons a as ih =>
    obtain ⟨rfl, -⟩ | hb := mem_passing_cons.mp h
    · exact List.mem_cons_self
    · exact List.mem_cons_of_mem a (ih hb)

/-! ## What comes up at one instant -/

section

variable {now : τ}

theorem get_offer_of_ne (h : (lock a).map Prod.fst ≠ some k) :
    (offer lock time g a).store.get now k = g.store.get now k := by
  by_cases hopen : Open lock time g a
  · rw [offer_of_open hopen, Expiring.get, Expiring.get]
    exact congrArg (Option.bind · _) (take_of_ne h)
  · rw [offer_of_not_open hopen]

theorem get_eq_none_of_offer (htime : time a = now)
    (h : (offer lock time g a).store.get now k = none) : g.store.get now k = none := by
  by_cases hk : (lock a).map Prod.fst = some k
  · by_cases hopen : Open lock time g a
    · obtain ⟨l, hl, rfl⟩ := Option.map_eq_some_iff.mp hk
      exact htime ▸ hopen l hl
    · rwa [offer_of_not_open hopen] at h
  · rwa [get_offer_of_ne hk] at h

theorem Open.of_offer (hb : time b = now) (ha : time a = now)
    (h : Open lock time (offer lock time g a) b) : Open lock time g b := by
  intro l hl
  have hget := h l hl
  rw [hb] at hget ⊢
  exact get_eq_none_of_offer ha hget

theorem open_of_mem_passing (hnow : ∀ a ∈ as, time a = now) (h : b ∈ passing lock time g as) :
    b ∈ as ∧ Open lock time g b := by
  induction as generalizing g with
  | nil => cases h
  | cons a as ih =>
    have ha : time a = now := hnow a List.mem_cons_self
    have has : ∀ c ∈ as, time c = now := fun c hc ↦ hnow c (List.mem_cons_of_mem a hc)
    obtain ⟨rfl, hopen⟩ | hb := mem_passing_cons.mp h
    · exact ⟨List.mem_cons_self, hopen⟩
    · obtain ⟨hmem, hopen⟩ := ih has hb
      exact ⟨List.mem_cons_of_mem a hmem, hopen.of_offer (has b hmem) ha⟩

theorem exists_mem_passing (hmem : a ∈ as) (hopen : Open lock time g a) :
    ∃ b ∈ as, b ∈ passing lock time g as ∧
      (lock b).map Prod.fst = (lock a).map Prod.fst ∧ (lock a = none → b = a) := by
  induction as generalizing g with
  | nil => cases hmem
  | cons c as ih =>
    obtain rfl | hmem := List.mem_cons.mp hmem
    · exact ⟨a, List.mem_cons_self, mem_passing_cons.mpr (.inl ⟨rfl, hopen⟩), rfl, fun _ ↦ rfl⟩
    · by_cases hopen' : Open lock time (offer lock time g c) a
      · obtain ⟨b, hb, hpassing, hlock⟩ := ih hmem hopen'
        exact ⟨b, List.mem_cons_of_mem c hb, mem_passing_cons.mpr (.inr hpassing), hlock⟩
      · -- `c` has taken the key
        have hkey : ∃ l ∈ lock a, (lock c).map Prod.fst = some l.1 := by
          by_contra hno
          push Not at hno
          refine hopen' fun l hl ↦ ?_
          rw [get_offer_of_ne (hno l hl)]
          exact hopen l hl
        obtain ⟨l, hl, hkey⟩ := hkey
        have hpass : Open lock time g c := by
          by_contra hno
          rw [offer_of_not_open hno] at hopen'
          exact hopen' hopen
        refine ⟨c, List.mem_cons_self, mem_passing_cons.mpr (.inl ⟨rfl, hpass⟩), ?_, ?_⟩
        · rw [hkey, Option.mem_def.mp hl]
          rfl
        · intro hnone
          rw [hnone] at hl
          cases hl

theorem mem_passing_iff (hnow : ∀ a ∈ as, time a = now)
    (hinj : ∀ a ∈ as, ∀ b ∈ as, lock a ≠ none →
      (lock b).map Prod.fst = (lock a).map Prod.fst → b = a) :
    a ∈ passing lock time g as ↔ a ∈ as ∧ Open lock time g a := by
  constructor
  · exact open_of_mem_passing hnow
  · rintro ⟨hmem, hopen⟩
    obtain ⟨b, hb, hpassing, hkey, hnone⟩ := exists_mem_passing hmem hopen
    by_cases hl : lock a = none
    · exact hnone hl ▸ hpassing
    · exact hinj a hmem b hb hl hkey ▸ hpassing

end

end Gate

end Shellius.Lib
