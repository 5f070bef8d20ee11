import Mathlib.Data.List.Infix

/-!
# The recent blocks of a stream

A stream comes in blocks, and only its end is kept: as many whole blocks as have at most
`max` elements.  `recent max l` is the longest such suffix of the blocks `l`.  It can be
computed from the suffix kept before and the block that has come, which is `recent_snoc`.
-/

universe u

namespace Shellius.Lib

variable {α : Type u}

/-- The longest suffix of whole blocks with at most `max` elements. -/
def recent (max : ℕ) : List (List α) → List (List α)
  | [] => []
  | c :: l => if (c :: l).flatten.length ≤ max then c :: l else recent max l

variable {max : ℕ} {l m : List (List α)} {c : List α}

@[simp] theorem recent_nil : recent max ([] : List (List α)) = [] := rfl

theorem recent_of_length_le (h : l.flatten.length ≤ max) : recent max l = l := by
  cases l with
  | nil => rfl
  | cons c l => exact if_pos h

theorem recent_suffix (max : ℕ) (l : List (List α)) : recent max l <:+ l := by
  induction l with
  | nil => exact List.suffix_rfl
  | cons c l ih =>
    unfold recent
    split
    · exact List.suffix_rfl
    · exact ih.trans (List.suffix_cons c l)

theorem length_recent (max : ℕ) (l : List (List α)) : (recent max l).flatten.length ≤ max := by
  induction l with
  | nil => exact Nat.zero_le max
  | cons c l ih =>
    unfold recent
    split
    · assumption
    · exact ih

theorem flatten_suffix (h : m <:+ l) : m.flatten <:+ l.flatten := by
  obtain ⟨k, rfl⟩ := h
  rw [List.flatten_append]
  exact List.suffix_append _ _

theorem suffix_recent (hm : m <:+ l) (hlen : m.flatten.length ≤ max) : m <:+ recent max l := by
  induction l with
  | nil => exact hm
  | cons c l ih =>
    unfold recent
    split
    · exact hm
    · rename_i hbig
      obtain rfl | hm := List.suffix_cons_iff.mp hm
      · exact absurd hlen hbig
      · exact ih hm

theorem recent_of_suffix (hm : m <:+ l) (hrecent : recent max l <:+ m) :
    recent max m = recent max l := by
  have hle : recent max m <:+ recent max l :=
    suffix_recent ((recent_suffix max m).trans hm) (length_recent max m)
  have hge : recent max l <:+ recent max m := suffix_recent hrecent (length_recent max l)
  exact hle.eq_of_length (Nat.le_antisymm hle.length_le hge.length_le)

theorem recent_snoc (max : ℕ) (l : List (List α)) (c : List α) :
    recent max (recent max l ++ [c]) = recent max (l ++ [c]) := by
  apply recent_of_suffix
  · exact List.suffix_append_self_iff.mpr (recent_suffix max l)
  · have hlen := length_recent max (l ++ [c])
    obtain hnil | ⟨k, hk, hkl⟩ := List.suffix_concat_iff.mp (recent_suffix max (l ++ [c]))
    · rw [hnil]
      exact List.nil_suffix
    · rw [hk] at hlen ⊢
      rw [List.flatten_append, List.length_append] at hlen
      exact List.suffix_append_self_iff.mpr (suffix_recent hkl (by omega))

theorem recent_eq_nil_iff : recent max (l ++ [c]) = [] ↔ max < c.length := by
  constructor
  · intro h
    by_contra hc
    have hfits : [c] <:+ recent max (l ++ [c]) :=
      suffix_recent (List.suffix_append l [c]) (by simpa using hc)
    rw [h] at hfits
    exact List.cons_ne_nil c [] (List.suffix_nil.mp hfits)
  · intro hc
    obtain hnil | ⟨k, hk, -⟩ := List.suffix_concat_iff.mp (recent_suffix max (l ++ [c]))
    · exact hnil
    · have hlen := length_recent max (l ++ [c])
      rw [hk, List.flatten_append, List.length_append, List.flatten_singleton] at hlen
      omega

end Shellius.Lib
