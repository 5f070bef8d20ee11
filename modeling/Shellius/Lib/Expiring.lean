import Mathlib.Logic.Function.Basic
import Mathlib.Order.Lattice

/-!
# Key-value stores with expiry

The commands of a cache whose keys may expire: an entry is there until its
deadline passes, and afterwards it is as if it had been deleted.
-/

universe u v w

namespace Shellius.Lib

/-- A value and the instant it expires at, if any. -/
structure Entry (α : Type u) (τ : Type w) where
  value : α
  expiresAt : Option τ

/-- A store from keys to entries, expired ones included. -/
abbrev Expiring (κ : Type v) (α : Type u) (τ : Type w) := κ → Option (Entry α τ)

variable {α : Type u} {κ : Type v} {τ : Type w}

/-- Whether an entry has not expired. -/
def Entry.live [LinearOrder τ] (now : τ) (e : Entry α τ) : Bool :=
  e.expiresAt.all fun t ↦ now < t

@[simp] theorem Entry.live_mk_none [LinearOrder τ] {now : τ} {v : α} : live now ⟨v, none⟩ := rfl

@[simp] theorem Entry.live_mk_some [LinearOrder τ] {now t : τ} {v : α} :
    live now ⟨v, some t⟩ ↔ now < t := by simp [live]

theorem Entry.live_anti [LinearOrder τ] {now now' : τ} {e : Entry α τ} (hle : now ≤ now')
    (h : e.live now') : e.live now := by
  cases ht : e.expiresAt with
  | none => simp [live, ht]
  | some t =>
    have hlt : now' < t := by simpa [live, ht] using h
    simpa [live, ht] using lt_of_le_of_lt hle hlt

namespace Expiring

/-! ## Writing -/

section Write

variable [DecidableEq κ]

/-- SET with an optional deadline. -/
def set (s : Expiring κ α τ) (k : κ) (v : α) (t : Option τ) : Expiring κ α τ :=
  Function.update s k (some ⟨v, t⟩)

/-- DEL -/
def del (s : Expiring κ α τ) (k : κ) : Expiring κ α τ := Function.update s k none

variable {s : Expiring κ α τ} {k j : κ} {v : α} {t : Option τ}

@[simp] theorem del_self : del s k k = none := by simp [del]

theorem del_of_ne (h : j ≠ k) : del s k j = s j := by simp [del, h]

@[simp] theorem set_self : set s k v t k = some ⟨v, t⟩ := by simp [set]

theorem set_of_ne (h : j ≠ k) : set s k v t j = s j := by simp [set, h]

end Write

/-! ## Reading -/

section Read

variable [LinearOrder τ]

/-- GET -/
def get (now : τ) (s : Expiring κ α τ) (k : κ) : Option α :=
  (s k).bind fun e ↦ if e.live now then some e.value else none

variable {s : Expiring κ α τ} {k j : κ} {v : α} {now : τ}

theorem get_eq_some : get now s k = some v ↔ ∃ e, s k = some e ∧ e.live now ∧ e.value = v := by
  simp [get, Option.bind_eq_some_iff]

theorem get_anti {now' : τ} (hle : now ≤ now') (h : get now' s k = some v) :
    get now s k = some v := by
  obtain ⟨e, he, hlive, hv⟩ := get_eq_some.mp h
  exact get_eq_some.mpr ⟨e, he, Entry.live_anti hle hlive, hv⟩

variable [DecidableEq κ]

@[simp] theorem get_del_self : get now (del s k) k = none := by simp [get]

theorem get_del_of_ne (h : j ≠ k) : get now (del s k) j = get now s j := by
  simp [get, del_of_ne h]

theorem get_set_of_ne {t : Option τ} (h : j ≠ k) : get now (set s k v t) j = get now s j := by
  simp [get, set_of_ne h]

end Read

/-! ## Counting -/

section Count

variable [LinearOrder τ] [DecidableEq κ]

/-- INCR: an absent or expired counter starts again at one, without a
deadline. -/
def incr (now : τ) (s : Expiring κ Nat τ) (k : κ) : Nat × Expiring κ Nat τ :=
  match s k with
  | some e =>
    if e.live now then (e.value + 1, Function.update s k (some ⟨e.value + 1, e.expiresAt⟩))
    else (1, Function.update s k (some ⟨1, none⟩))
  | none => (1, Function.update s k (some ⟨1, none⟩))

/-- EXPIRE: gives a live key a deadline. -/
def expire (now : τ) (s : Expiring κ α τ) (k : κ) (t : τ) : Expiring κ α τ :=
  match s k with
  | some e => if e.live now then Function.update s k (some ⟨e.value, some t⟩) else s
  | none => s

variable {s : Expiring κ Nat τ} {k j : κ} {now : τ} {e : Entry Nat τ}

/-- A counter that reads `n` reads one more after it is bumped. -/
theorem incr_eq : (incr now s k).1 = (get now s k).getD 0 + 1 := by
  cases hs : s k with
  | none => simp [incr, get, hs]
  | some e => by_cases hl : e.live now <;> simp [incr, get, hs, hl]

theorem get_incr_self : get now (incr now s k).2 k = some (incr now s k).1 := by
  cases hs : s k with
  | none => simp [incr, get, hs]
  | some e =>
    by_cases hl : e.live now
    · have hl' : Entry.live now ⟨e.value + 1, e.expiresAt⟩ := hl
      simp [incr, get, hs, hl, hl']
    · simp [incr, get, hs, hl]

theorem incr_of_ne (h : j ≠ k) : (incr now s k).2 j = s j := by
  unfold incr
  split
  · split <;> simp [h]
  · simp [h]

theorem get_incr_of_ne (h : j ≠ k) : get now (incr now s k).2 j = get now s j := by
  simp [get, incr_of_ne h]

theorem expiresAt_incr (h : (incr now s k).2 k = some e) :
    e.expiresAt = none ∨ ∃ e₀, s k = some e₀ ∧ e₀.expiresAt = e.expiresAt := by
  cases hs : s k with
  | none =>
    obtain rfl : ⟨1, none⟩ = e := by simpa [incr, hs] using h
    exact .inl rfl
  | some e₀ =>
    by_cases hl : e₀.live now
    · obtain rfl : ⟨e₀.value + 1, e₀.expiresAt⟩ = e := by simpa [incr, hs, hl] using h
      exact .inr ⟨e₀, rfl, rfl⟩
    · obtain rfl : ⟨1, none⟩ = e := by simpa [incr, hs, hl] using h
      exact .inl rfl

end Count

/-! ## Deadlines -/

section Deadline

variable [LinearOrder τ] [DecidableEq κ] {s : Expiring κ α τ} {k j : κ} {now t : τ} {e : Entry α τ}

theorem get_expire (h : now < t) : get now (expire now s k t) j = get now s j := by
  cases hs : s k with
  | none => simp [expire, hs]
  | some e =>
    by_cases hl : e.live now
    · by_cases hj : j = k
      · subst hj
        simp [expire, get, hs, hl, h]
      · simp [expire, get, hs, hl, hj]
    · simp [expire, hs, hl]

theorem expire_eq_some (h : expire now s k t j = some e) :
    s j = some e ∨ j = k ∧ s k ≠ none ∧ e.expiresAt = some t := by
  cases hs : s k with
  | none => exact .inl (by simpa [expire, hs] using h)
  | some e₀ =>
    by_cases hl : e₀.live now
    · by_cases hj : j = k
      · subst hj
        obtain rfl : ⟨e₀.value, some t⟩ = e := by simpa [expire, hs, hl] using h
        exact .inr ⟨rfl, by simp, rfl⟩
      · exact .inl (by simpa [expire, hs, hl, hj] using h)
    · exact .inl (by simpa [expire, hs, hl] using h)

end Deadline

end Expiring

end Shellius.Lib
