import Mathlib.Data.List.Nodup

/-!
# Histories

A history is a list of what has happened, the newest entry first.  It is *orderly* if every
entry was admissible after those before it.  What has to be shown of an orderly history then
follows entry by entry from what makes one admissible: that two entries are the same or one
comes after the other, that entries of a kind occur once, that their marks are all different.
-/

universe u v

namespace Shellius.Lib

variable {α : Type u} {β : Type v} {ok : List α → α → Prop} {l r : List α} {a b : α}

/-- Every entry was admissible after those before it. -/
def Orderly (ok : List α → α → Prop) : List α → Prop
  | [] => True
  | a :: l => ok l a ∧ Orderly ok l

namespace Orderly

theorem nil : Orderly ok [] := trivial

theorem cons (h : Orderly ok l) (ha : ok l a) : Orderly ok (a :: l) := ⟨ha, h⟩

theorem admissible (h : Orderly ok l) (hs : a :: r <:+ l) : ok r a := by
  induction l with
  | nil => cases List.suffix_nil.mp hs
  | cons b l ih =>
    obtain heq | hs := List.suffix_cons_iff.mp hs
    · obtain ⟨rfl, rfl⟩ := List.cons.inj heq
      exact h.1
    · exact ih h.2 hs

theorem total (h : Orderly ok l) (ha : a ∈ l) (hb : b ∈ l) :
    a = b ∨ (∃ r, ok r a ∧ b ∈ r) ∨ ∃ r, ok r b ∧ a ∈ r := by
  induction l with
  | nil => cases ha
  | cons c l ih =>
    obtain hac | hal := List.mem_cons.mp ha
    · subst hac
      obtain hbc | hbl := List.mem_cons.mp hb
      · exact .inl hbc.symm
      · exact .inr (.inl ⟨l, h.1, hbl⟩)
    · obtain hbc | hbl := List.mem_cons.mp hb
      · subst hbc
        exact .inr (.inr ⟨l, h.1, hal⟩)
      · exact ih h.2 hal hbl

theorem countP_le_one {p : α → Bool} (h : Orderly ok l)
    (hp : ∀ r a, ok r a → p a = true → ∀ b ∈ r, p b = false) : l.countP p ≤ 1 := by
  induction l with
  | nil => exact Nat.zero_le 1
  | cons a l ih =>
    cases hpa : p a with
    | true =>
      have hnone : l.countP p = 0 := List.countP_eq_zero.mpr fun b hb ↦ by
        rw [hp l a h.1 hpa b hb]
        exact Bool.false_ne_true
      rw [List.countP_cons_of_pos hpa]
      omega
    | false =>
      rw [List.countP_cons_of_neg (by rw [hpa]; exact Bool.false_ne_true)]
      exact ih h.2

theorem nodup_filterMap {f : α → Option β} (h : Orderly ok l)
    (hf : ∀ r a m, ok r a → f a = some m → m ∉ r.filterMap f) : (l.filterMap f).Nodup := by
  induction l with
  | nil => exact List.nodup_nil
  | cons a l ih =>
    cases hfa : f a with
    | none =>
      rw [List.filterMap_cons_none hfa]
      exact ih h.2
    | some m =>
      rw [List.filterMap_cons_some hfa]
      exact List.nodup_cons.mpr ⟨hf l a m h.1 hfa, ih h.2⟩

end Orderly

end Shellius.Lib
