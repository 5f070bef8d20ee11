import Mathlib.Data.List.Nodup

/-!
# Tables of rows with a key

A table is a list of rows, and a column (or any function of the row) is its key.
`lookup` finds the row of a key and `modify` updates every row of a key in
place; on a table whose keys are distinct that is one row at most.
-/

universe u v

namespace Shellius.Lib

variable {α : Type u} {κ : Type v} [DecidableEq κ]

/-- The row with a key. -/
def lookup (key : α → κ) (k : κ) (l : List α) : Option α := l.find? fun a ↦ key a = k

/-- The table with `f` applied to the rows with a key. -/
def modify (key : α → κ) (k : κ) (f : α → α) (l : List α) : List α :=
  l.map fun a ↦ if key a = k then f a else a

variable {key : α → κ} {k j : κ} {f : α → α} {l : List α} {a b : α}

theorem lookup_spec (h : lookup key k l = some a) : a ∈ l ∧ key a = k :=
  ⟨List.mem_of_find?_eq_some h, by simpa using List.find?_some h⟩

theorem lookup_eq_none : lookup key k l = none ↔ ∀ a ∈ l, key a ≠ k := by
  simp [lookup, List.find?_eq_none]

theorem lookup_of_mem (hl : (l.map key).Nodup) (h : a ∈ l) : lookup key (key a) l = some a := by
  cases hf : lookup key (key a) l with
  | none => exact absurd rfl (lookup_eq_none.mp hf a h)
  | some b =>
    obtain ⟨hb, hk⟩ := lookup_spec hf
    rw [List.inj_on_of_nodup_map hl hb h hk]

theorem mem_modify :
    b ∈ modify key k f l ↔ (b ∈ l ∧ key b ≠ k) ∨ ∃ a ∈ l, key a = k ∧ f a = b := by
  simp only [modify, List.mem_map]
  constructor
  · rintro ⟨a, ha, rfl⟩
    by_cases hk : key a = k
    · exact .inr ⟨a, ha, hk, by rw [if_pos hk]⟩
    · exact .inl (by rw [if_neg hk]; exact ⟨ha, hk⟩)
  · rintro (⟨hb, hk⟩ | ⟨a, ha, hk, rfl⟩)
    · exact ⟨b, hb, if_neg hk⟩
    · exact ⟨a, ha, if_pos hk⟩

theorem forall_modify {P : α → Prop} (h : ∀ a ∈ l, P a) (hf : ∀ a ∈ l, key a = k → P (f a)) :
    ∀ b ∈ modify key k f l, P b := fun b hb ↦ by
  rcases mem_modify.mp hb with ⟨hb, -⟩ | ⟨a, ha, hk, rfl⟩
  · exact h b hb
  · exact hf a ha hk

/-- Updating rows without touching what `g` reads leaves what `g` reads. -/
theorem map_modify {β : Type*} {g : α → β} (hf : ∀ a ∈ l, key a = k → g (f a) = g a) :
    (modify key k f l).map g = l.map g := by
  rw [modify, List.map_map]
  refine List.map_congr_left fun a ha ↦ ?_
  by_cases hk : key a = k
  · simp [hk, hf a ha hk]
  · simp [hk]

theorem lookup_modify (hf : ∀ a, key a = k → key (f a) = k) :
    lookup key j (modify key k f l) = if j = k then (lookup key k l).map f else lookup key j l := by
  induction l with
  | nil => split <;> rfl
  | cons a l ih =>
    unfold lookup modify at ih ⊢
    rw [List.map_cons, List.find?_cons, List.find?_cons, List.find?_cons, ih]
    by_cases ha : key a = k
    · by_cases hj : j = k
      · simp [ha, hj, hf a ha]
      · have hkj : ¬ k = j := fun h ↦ hj h.symm
        simp [ha, hj, hf a ha, hkj]
    · by_cases hj : j = k
      · simp [ha, hj]
      · simp [ha, hj]

theorem lookup_append_singleton :
    lookup key j (l ++ [a]) = (lookup key j l).or (if key a = j then some a else none) := by
  unfold lookup
  rw [List.find?_append]
  by_cases ha : key a = j <;> simp [ha]

theorem lookup_filter_ne :
    lookup key j (l.filter fun a ↦ key a ≠ k) = if j = k then none else lookup key j l := by
  induction l with
  | nil => split <;> rfl
  | cons a l ih =>
    unfold lookup at ih ⊢
    rw [List.find?_cons]
    by_cases ha : key a = k
    · rw [List.filter_cons_of_neg (by simpa using ha), ih]
      by_cases hj : j = k
      · simp [hj]
      · have hkj : ¬ k = j := fun h ↦ hj h.symm
        simp [hj, ha, hkj]
    · rw [List.filter_cons_of_pos (by simpa using ha), List.find?_cons, ih]
      by_cases hj : j = k
      · simp [hj, ha]
      · simp [hj]

theorem map_filter_map {α β : Type*} {f : α → α} {p q : α → Bool} {g : α → β}
    (hp : ∀ a, p (f a) = q a) (hg : ∀ a, g (f a) = g a) (l : List α) :
    ((l.map f).filter p).map g = (l.filter q).map g := by
  have hpq : p ∘ f = q := funext hp
  rw [List.filter_map, List.map_map, hpq]
  exact List.map_congr_left fun a _ ↦ hg a

theorem sublist_map_filterMap {α β κ : Type*} {f : α → Option β} {key : α → κ} {key' : β → κ}
    (hf : ∀ a b, f a = some b → key' b = key a) (l : List α) :
    ((l.filterMap f).map key').Sublist (l.map key) := by
  induction l with
  | nil => exact .slnil
  | cons a l ih =>
    cases hfa : f a with
    | none =>
      rw [List.filterMap_cons_none hfa]
      exact ih.cons _
    | some b =>
      rw [List.filterMap_cons_some hfa, List.map_cons, List.map_cons, hf a b hfa]
      exact ih.cons_cons _

theorem find?_congr {α : Type*} {p q : α → Bool} {l : List α} (h : ∀ a ∈ l, p a = q a) :
    l.find? p = l.find? q := by
  induction l with
  | nil => rfl
  | cons a l ih =>
    rw [List.find?_cons, List.find?_cons, h a List.mem_cons_self,
      ih fun b hb ↦ h b (List.mem_cons_of_mem _ hb)]

end Shellius.Lib
