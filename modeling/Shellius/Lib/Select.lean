import Mathlib.Data.List.MinMax
import Mathlib.Data.List.Sort
import Mathlib.Data.Prod.Lex

/-!
# Selecting the first least element of a list

A program that answers "which rule wins?" often sorts the candidates and takes
the head.  When the sort is stable the winner is the *first* element of least
key, and everything one wants to know about the choice follows from that
description alone: it is unique, it is unaffected by deleting candidates that
lose, and it does not depend on how the list was pre-sorted by a coarser order.

`FirstMin key l x` is the description and `sortOn` the stable sort;
`head?_sortOn` says that one computes the other.
-/

universe u v

namespace Shellius.Lib

variable {α : Type u} {β : Type v}

/-- The first element of greatest key. -/
abbrev greatest {κ : Type v} [LinearOrder κ] (key : α → κ) (l : List α) : Option α := l.argmax key

/-- The first element of least key. -/
abbrev least {κ : Type v} [LinearOrder κ] (key : α → κ) (l : List α) : Option α := l.argmin key

/-! ## Stable sorting -/

section Stable

variable (r : α → α → Prop) [DecidableRel r]

theorem orderedInsert_filter [Std.Total r] [IsTrans α r] (p : α → Bool) (a : α)
    {l : List α} (hl : l.Pairwise r) :
    (l.orderedInsert r a).filter p =
      if p a then (l.filter p).orderedInsert r a else l.filter p := by
  induction l with
  | nil => by_cases h : p a <;> simp [h]
  | cons b l ih =>
    have hb : ∀ c ∈ l, r b c := (List.pairwise_cons.mp hl).1
    have ih := ih hl.of_cons
    by_cases hab : r a b
    · rw [List.orderedInsert_cons_of_le r l hab]
      by_cases hpa : p a
      · -- `a` goes in front of `b`, hence in front of whatever survives behind it
        have hle : ∀ c ∈ (b :: l).filter p, r a c := fun c hc ↦ by
          rcases List.mem_cons.mp (List.mem_of_mem_filter hc) with rfl | hc
          · exact hab
          · exact trans_of r hab (hb c hc)
        rw [List.filter_cons_of_pos hpa, if_pos hpa]
        cases hf : (b :: l).filter p with
        | nil => rfl
        | cons c cs =>
          rw [List.orderedInsert_cons_of_le r cs (hle c (by rw [hf]; exact List.mem_cons_self))]
      · rw [List.filter_cons_of_neg hpa, if_neg hpa]
    · rw [List.orderedInsert_of_not_le r l hab]
      by_cases hpb : p b
      · rw [List.filter_cons_of_pos hpb, List.filter_cons_of_pos hpb, ih]
        split
        · rw [List.orderedInsert_of_not_le r _ hab]
        · rfl
      · rw [List.filter_cons_of_neg hpb, List.filter_cons_of_neg hpb, ih]

theorem insertionSort_filter [Std.Total r] [IsTrans α r] (p : α → Bool) (l : List α) :
    (l.insertionSort r).filter p = (l.filter p).insertionSort r := by
  induction l with
  | nil => rfl
  | cons a l ih =>
    rw [List.insertionSort_cons, orderedInsert_filter r p a (List.pairwise_insertionSort r l), ih]
    by_cases h : p a
    · rw [if_pos h, List.filter_cons_of_pos h, List.insertionSort_cons]
    · rw [if_neg h, List.filter_cons_of_neg h]

theorem insertionSort_congr (s : α → α → Prop) [DecidableRel s] {l : List α}
    (h : ∀ a ∈ l, ∀ b ∈ l, r a b ↔ s a b) : l.insertionSort r = l.insertionSort s := by
  simpa using List.map_insertionSort r s id l h

end Stable

/-! ## Sorting on a key -/

section Key

variable [LinearOrder β] (key : α → β)

instance keyTotal : Std.Total fun a b ↦ key a ≤ key b := ⟨fun a b ↦ le_total (key a) (key b)⟩

instance keyTrans : IsTrans α fun a b ↦ key a ≤ key b := ⟨fun _ _ _ ↦ le_trans⟩

/-- The stable sort of a list by increasing key. -/
def sortOn (l : List α) : List α := l.insertionSort fun a b ↦ key a ≤ key b

@[simp] theorem sortOn_nil : sortOn key [] = [] := rfl

@[simp] theorem mem_sortOn {l : List α} {x : α} : x ∈ sortOn key l ↔ x ∈ l :=
  List.mem_insertionSort _

theorem sortOn_filter (p : α → Bool) (l : List α) :
    (sortOn key l).filter p = sortOn key (l.filter p) := insertionSort_filter _ p l

theorem sortOn_congr {γ : Type*} [LinearOrder γ] (key' : α → γ) {l : List α}
    (h : ∀ a ∈ l, ∀ b ∈ l, key a ≤ key b ↔ key' a ≤ key' b) : sortOn key l = sortOn key' l :=
  insertionSort_congr _ _ h

@[simp] theorem sortOn_sortOn (l : List α) : sortOn key (sortOn key l) = sortOn key l :=
  (List.pairwise_insertionSort _ l).insertionSort_eq

/-- `x` is the first element of least key in `l`: everything before it has a
strictly greater key, everything after it a key at least as great. -/
def FirstMin (l : List α) (x : α) : Prop :=
  ∃ l₁ l₂, l = l₁ ++ x :: l₂ ∧ (∀ y ∈ l₁, key x < key y) ∧ ∀ y ∈ l₂, key x ≤ key y

variable {key} {l : List α} {x y : α}

namespace FirstMin

theorem mem (h : FirstMin key l x) : x ∈ l := by
  obtain ⟨l₁, l₂, rfl, -, -⟩ := h
  exact List.mem_append_right _ List.mem_cons_self

theorem le (h : FirstMin key l x) (hy : y ∈ l) : key x ≤ key y := by
  obtain ⟨l₁, l₂, rfl, h₁, h₂⟩ := h
  rcases List.mem_append.mp hy with hy | hy
  · exact (h₁ y hy).le
  · rcases List.mem_cons.mp hy with rfl | hy
    · exact le_rfl
    · exact h₂ y hy

theorem filter (h : FirstMin key l x) {p : α → Bool} (hp : p x) :
    FirstMin key (l.filter p) x := by
  obtain ⟨l₁, l₂, rfl, h₁, h₂⟩ := h
  refine ⟨l₁.filter p, l₂.filter p, ?_, fun y hy ↦ h₁ y (List.mem_of_mem_filter hy),
    fun y hy ↦ h₂ y (List.mem_of_mem_filter hy)⟩
  rw [List.filter_append, List.filter_cons_of_pos hp]

theorem append_singleton (h : FirstMin key (l ++ [y]) x) :
    (FirstMin key l x ∧ key x ≤ key y) ∨ (x = y ∧ ∀ z ∈ l, key y < key z) := by
  obtain ⟨l₁, l₂, hl, h₁, h₂⟩ := h
  obtain rfl | ⟨l₂, z, rfl⟩ := List.eq_nil_or_concat l₂
  · obtain ⟨rfl, hy⟩ := List.append_inj' hl rfl
    obtain rfl := List.head_eq_of_cons_eq hy
    exact .inr ⟨rfl, h₁⟩
  · rw [List.concat_eq_append, ← List.cons_append, ← List.append_assoc] at hl
    obtain ⟨rfl, hy⟩ := List.append_inj' hl rfl
    obtain rfl := List.head_eq_of_cons_eq hy
    refine .inl ⟨⟨l₁, l₂, rfl, h₁, fun w hw ↦ h₂ w ?_⟩, h₂ y ?_⟩
    · simp [hw]
    · simp

end FirstMin

theorem head?_sortOn_cons (a : α) (l : List α) :
    (sortOn key (a :: l)).head? =
      match (sortOn key l).head? with
      | none => some a
      | some b => if key a ≤ key b then some a else some b := by
  change ((sortOn key l).orderedInsert _ a).head? = _
  cases sortOn key l with
  | nil => rfl
  | cons b bs =>
    by_cases h : key a ≤ key b
    · rw [List.orderedInsert_cons_of_le _ bs h]; simp [h]
    · rw [List.orderedInsert_of_not_le _ bs h]; simp [h]

theorem head?_sortOn_eq_none : (sortOn key l).head? = none ↔ l = [] := by
  rw [List.head?_eq_none_iff]
  exact ⟨fun h ↦ List.eq_nil_iff_forall_not_mem.mpr fun x hx ↦ by
    simpa [h] using (mem_sortOn key).mpr hx, fun h ↦ by rw [h, sortOn_nil]⟩

theorem head?_sortOn : (sortOn key l).head? = some x ↔ FirstMin key l x := by
  induction l generalizing x with
  | nil => exact ⟨fun h ↦ (Option.some_ne_none x h.symm).elim, fun h ↦ (List.not_mem_nil h.mem).elim⟩
  | cons a l ih =>
    rw [head?_sortOn_cons]
    cases hs : (sortOn key l).head? with
    | none =>
      have hl := head?_sortOn_eq_none.mp hs
      subst hl
      refine ⟨fun h ↦ ?_, fun h ↦ by rw [List.mem_singleton.mp h.mem]⟩
      obtain rfl : a = x := Option.some.inj h
      exact ⟨[], [], rfl, by simp, by simp⟩
    | some b =>
      have hb := ih.mp hs
      refine ⟨fun h ↦ ?_, ?_⟩
      · by_cases hab : key a ≤ key b
        · obtain rfl : a = x := by simpa [hab] using h
          exact ⟨[], l, rfl, by simp, fun y hy ↦ le_trans hab (hb.le hy)⟩
        · obtain rfl : b = x := by simpa [hab] using h
          obtain ⟨l₁, l₂, rfl, h₁, h₂⟩ := hb
          exact ⟨a :: l₁, l₂, rfl, List.forall_mem_cons.mpr ⟨not_le.mp hab, h₁⟩, h₂⟩
      · rintro ⟨l₁, l₂, he, h₁, h₂⟩
        cases l₁ with
        | nil =>
          obtain ⟨rfl, rfl⟩ := List.cons.inj he
          simp [h₂ b hb.mem]
        | cons c l₁ =>
          obtain ⟨rfl, rfl⟩ := List.cons.inj he
          have hx : FirstMin key (l₁ ++ x :: l₂) x :=
            ⟨l₁, l₂, rfl, fun y hy ↦ h₁ y (List.mem_cons_of_mem _ hy), h₂⟩
          obtain rfl : b = x := Option.some.inj (hs.symm.trans (ih.mpr hx))
          simp [not_le.mpr (h₁ a List.mem_cons_self)]

theorem FirstMin.unique (hx : FirstMin key l x) (hy : FirstMin key l y) : x = y :=
  Option.some.inj ((head?_sortOn.mpr hx).symm.trans (head?_sortOn.mpr hy))

theorem exists_firstMin (h : l ≠ []) : ∃ x, FirstMin key l x := by
  cases hs : (sortOn key l).head? with
  | none => exact absurd (head?_sortOn_eq_none.mp hs) h
  | some x => exact ⟨x, head?_sortOn.mp hs⟩

end Key

end Shellius.Lib
