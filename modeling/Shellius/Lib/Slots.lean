import Mathlib.Data.List.Nodup
import Mathlib.Data.List.ReduceOption

/-!
# Lists with empty slots

A list of options is a row of slots, some of them empty; `List.reduceOption` is what they
hold, in order.  What the slots hold is told by their indices: a value is held if some
index has it, and no value is held twice if no two indices have it.
-/

universe u

namespace Shellius.Lib

variable {α : Type u} {l l' : List (Option α)} {a : α}

theorem mem_reduceOption_iff : a ∈ l.reduceOption ↔ ∃ n : ℕ, l[n]? = some (some a) := by
  rw [List.reduceOption_mem_iff, List.mem_iff_getElem?]

/-- No value is held twice just when no two slots hold the same. -/
theorem nodup_reduceOption_iff : l.reduceOption.Nodup ↔
    ∀ (m n : ℕ) (a : α), l[m]? = some (some a) → l[n]? = some (some a) → m = n := by
  induction l with
  | nil => simp
  | cons o l ih =>
    have htail : (∀ (m n : ℕ) (a : α), (o :: l)[m]? = some (some a) →
          (o :: l)[n]? = some (some a) → m = n) →
        ∀ (m n : ℕ) (a : α), l[m]? = some (some a) → l[n]? = some (some a) → m = n := by
      intro h m n a hm hn
      exact Nat.succ.inj (h (m + 1) (n + 1) a (by simpa using hm) (by simpa using hn))
    cases o with
    | none =>
      rw [List.reduceOption_cons_of_none, ih]
      refine ⟨fun h m n a hm hn ↦ ?_, htail⟩
      cases m with
      | zero => simp at hm
      | succ m =>
        cases n with
        | zero => simp at hn
        | succ n => rw [h m n a (by simpa using hm) (by simpa using hn)]
    | some x =>
      rw [List.reduceOption_cons_of_some, List.nodup_cons, ih, mem_reduceOption_iff]
      constructor
      · rintro ⟨hx, h⟩ m n a hm hn
        cases m with
        | zero =>
          cases n with
          | zero => rfl
          | succ n =>
            obtain rfl : x = a := by simpa using hm
            exact absurd ⟨n, by simpa using hn⟩ hx
        | succ m =>
          cases n with
          | zero =>
            obtain rfl : x = a := by simpa using hn
            exact absurd ⟨m, by simpa using hm⟩ hx
          | succ n => rw [h m n a (by simpa using hm) (by simpa using hn)]
      · intro h
        refine ⟨?_, htail h⟩
        rintro ⟨n, hn⟩
        exact Nat.succ_ne_zero n (h (n + 1) 0 x (by simpa using hn) (by simp))

@[simp] theorem reduceOption_map_some (l : List α) : (l.map some).reduceOption = l := by
  induction l with
  | nil => rfl
  | cons a l ih => rw [List.map_cons, List.reduceOption_cons_of_some, ih]

theorem reduceOption_range_map (l : List α) (n : ℕ) :
    ((List.range n).map fun i ↦ l[i]?).reduceOption = l.take n := by
  induction n with
  | zero => rfl
  | succ n ih =>
    rw [List.range_succ, List.map_append, List.reduceOption_append, ih, List.take_add_one]
    cases h : l[n]? with
    | none => simp [h, List.reduceOption_cons_of_none]
    | some a => simp [h, List.reduceOption_cons_of_some]

/-- The first `n` slots, as far as they pass a test. -/
theorem reduceOption_range_filter (l : List (Option α)) (n : ℕ) (p : α → Bool) :
    ((List.range n).map fun i ↦ (l[i]?).join.filter p).reduceOption =
      (l.take n).reduceOption.filter p := by
  induction n with
  | zero => rfl
  | succ n ih =>
    rw [List.range_succ, List.map_append, List.reduceOption_append, ih, List.take_add_one,
      List.reduceOption_append, List.filter_append]
    congr 1
    rw [List.map_singleton]
    rcases l[n]? with _ | _ | a
    · rfl
    · rfl
    · by_cases ha : p a = true
      · rw [Option.join_some, Option.filter_some_pos ha]
        simp [ha, List.reduceOption_cons_of_some]
      · rw [Option.join_some, Option.filter_some_neg (by simpa using ha)]
        simp [ha, List.reduceOption_cons_of_some, List.reduceOption_cons_of_none]

/-- Every filled slot of the second row holds the same in the first. -/
def Thins (l l' : List (Option α)) : Prop :=
  ∀ (n : ℕ) (a : α), l'[n]? = some (some a) → l[n]? = some (some a)

theorem Thins.subset (h : Thins l l') : l'.reduceOption ⊆ l.reduceOption := by
  intro a ha
  obtain ⟨n, hn⟩ := mem_reduceOption_iff.mp ha
  exact mem_reduceOption_iff.mpr ⟨n, h n a hn⟩

theorem Thins.nodup (h : Thins l l') (hl : l.reduceOption.Nodup) : l'.reduceOption.Nodup := by
  rw [nodup_reduceOption_iff] at hl ⊢
  exact fun m n a hm hn ↦ hl m n a (h m a hm) (h n a hn)

theorem thins_set_none (l : List (Option α)) (i : ℕ) : Thins l (l.set i none) := by
  intro n a hn
  rw [List.getElem?_set] at hn
  split at hn
  · split at hn <;> simp at hn
  · exact hn

theorem thins_map {f : Option α → Option α} (hf : ∀ o a, f o = some a → o = some a)
    (l : List (Option α)) : Thins l (l.map f) := by
  intro n a hn
  rw [List.getElem?_map] at hn
  obtain ⟨o, ho, hfo⟩ := Option.map_eq_some_iff.mp hn
  rw [ho, hf o a hfo]

end Shellius.Lib
