import Mathlib.Data.List.Perm.Subperm
import Mathlib.Logic.Relation
import Mathlib.Logic.Function.Basic

/-!
# Hierarchies

A partial map `parent` sends everything to what is next above it.  It is a hierarchy
(`Acyclic`) when nothing is above itself.  The lemmas say when a hierarchy remains
one: under fewer links, when one link is set, and when something is taken out and
what was below it is put under something else.

`climb` walks up from a start and looks for a target, with a bound and a record of
what it has seen; in a hierarchy it finds what is above the start and nothing else.
-/

universe u

namespace Shellius.Lib

variable {α : Type u}

/-- `b` is next above `a`. -/
def NextAbove (parent : α → Option α) (a b : α) : Prop := parent a = some b

/-- `b` is above `a`, or `a` itself. -/
abbrev AtOrAbove (parent : α → Option α) : α → α → Prop := Relation.ReflTransGen (NextAbove parent)

/-- `b` is above `a`. -/
abbrev IsAbove (parent : α → Option α) : α → α → Prop := Relation.TransGen (NextAbove parent)

/-- Nothing is above itself. -/
def Acyclic (parent : α → Option α) : Prop := ∀ a, ¬ IsAbove parent a a

section

variable {parent parent' : α → Option α} {a b m r u : α}

theorem Acyclic.mono (h : Acyclic parent) (hsub : ∀ a b, parent' a = some b → parent a = some b) :
    Acyclic parent' :=
  fun a ha ↦ h a (Relation.TransGen.mono hsub a a ha)

theorem AtOrAbove.eq_of_notNextAbove (hu : ∀ a, parent a ≠ some u) (h : AtOrAbove parent m u) :
    m = u := by
  rcases Relation.ReflTransGen.cases_tail h with rfl | ⟨a, -, ha⟩
  · rfl
  · exact absurd ha (hu a)

/-! ## Setting one link -/

variable [DecidableEq α]

/-- Up from `m`, a new link of `u` is not met unless `u` was above `m` already. -/
theorem AtOrAbove.of_update (h : ¬ AtOrAbove parent m u)
    (ha : AtOrAbove (Function.update parent u (some m)) m a) : AtOrAbove parent m a := by
  induction ha with
  | refl => exact .refl
  | @tail b c _ hbc ih =>
    have hb : b ≠ u := by
      rintro rfl
      exact h ih
    rw [NextAbove, Function.update_of_ne hb] at hbc
    exact ih.tail hbc

/-- A link to something that `u` is not above closes no cycle. -/
theorem Acyclic.update (h : Acyclic parent) (hm : ¬ AtOrAbove parent m u) :
    Acyclic (Function.update parent u (some m)) := by
  have key : ∀ a c, IsAbove (Function.update parent u (some m)) a c →
      IsAbove parent a c ∨
        AtOrAbove parent a u ∧ AtOrAbove (Function.update parent u (some m)) m c := by
    intro a c hac
    induction hac with
    | @single c hc =>
      by_cases ha : a = u
      · subst ha
        rw [NextAbove, Function.update_self, Option.some.injEq] at hc
        exact .inr ⟨.refl, hc ▸ .refl⟩
      · rw [NextAbove, Function.update_of_ne ha] at hc
        exact .inl (.single hc)
    | @tail b c _ hbc ih =>
      rcases ih with hab | ⟨hau, hmb⟩
      · by_cases hb : b = u
        · subst hb
          rw [NextAbove, Function.update_self, Option.some.injEq] at hbc
          exact .inr ⟨hab.to_reflTransGen, hbc ▸ .refl⟩
        · rw [NextAbove, Function.update_of_ne hb] at hbc
          exact .inl (hab.tail hbc)
      · exact .inr ⟨hau, hmb.tail hbc⟩
  intro a ha
  rcases key a a ha with ha | ⟨hau, hma⟩
  · exact h a ha
  · exact hm ((AtOrAbove.of_update hm hma).trans hau)

/-! ## Taking something out -/

/-- `u` is taken out, and what was next below it put under `r`. -/
def rehang (parent : α → Option α) (u : α) (r : Option α) (a : α) : Option α :=
  if a = u then none else if parent a = some u then r else parent a

theorem rehang_none_le (h : rehang parent u none a = some b) : parent a = some b := by
  unfold rehang at h
  split at h
  · cases h
  · split at h
    · cases h
    · exact h

/-- Up from `r`, `u` being none of it, nothing has changed. -/
theorem AtOrAbove.of_rehang (hr : ¬ IsAbove parent r u)
    (h : AtOrAbove (rehang parent u (some r)) r a) : AtOrAbove parent r a := by
  induction h with
  | refl => exact .refl
  | @tail b c _ hbc ih =>
    rw [NextAbove, rehang] at hbc
    split at hbc
    · cases hbc
    · split at hbc
      · rename_i hbu
        exact absurd (Relation.TransGen.tail' ih hbu) hr
      · exact ih.tail hbc

/-- Up to `d`, which was next below `u`, nothing has changed. -/
theorem AtOrAbove.rehang {d : α} {q : Option α} (h : Acyclic parent) (hdu : parent d = some u)
    (had : AtOrAbove parent a d) : AtOrAbove (rehang parent u q) a d := by
  induction had using Relation.ReflTransGen.head_induction_on with
  | refl => exact .refl
  | @head b c hbc hcd ih =>
    have hcu : IsAbove parent c u := Relation.TransGen.tail' hcd hdu
    have hbu : b ≠ u := by
      rintro rfl
      exact h b (Relation.TransGen.head hbc hcu)
    have hnext : ¬ parent b = some u := by
      intro hbu'
      rw [NextAbove, hbu', Option.some.injEq] at hbc
      exact h u (hbc ▸ hcu)
    refine Relation.ReflTransGen.head ?_ ih
    rw [NextAbove, Lib.rehang, if_neg hbu, if_neg hnext]
    exact hbc

/-- A hierarchy without `u` is one just when what takes over was not below `u`. -/
theorem acyclic_rehang_iff (h : Acyclic parent) :
    Acyclic (rehang parent u (some r)) ↔ ¬ IsAbove parent r u := by
  constructor
  · intro hacyclic hru
    obtain ⟨d, hrd, hdu⟩ := Relation.TransGen.tail'_iff.mp hru
    have hdr : NextAbove (rehang parent u (some r)) d r := by
      have hne : d ≠ u := by
        rintro rfl
        exact h d (.single hdu)
      have hnext : parent d = some u := hdu
      rw [NextAbove, rehang, if_neg hne, if_pos hnext]
    exact hacyclic r (Relation.TransGen.tail' (AtOrAbove.rehang h hdu hrd) hdr)
  · intro hr
    have key : ∀ a c, IsAbove (rehang parent u (some r)) a c →
        IsAbove parent a c ∨
          IsAbove parent a u ∧ AtOrAbove (rehang parent u (some r)) r c := by
      have hstep : ∀ b c, NextAbove (rehang parent u (some r)) b c →
          NextAbove parent b c ∨ NextAbove parent b u ∧ r = c := by
        intro b c hbc
        rw [NextAbove, rehang] at hbc
        split at hbc
        · cases hbc
        · split at hbc
          · rename_i hbu
            exact .inr ⟨hbu, Option.some.inj hbc⟩
          · exact .inl hbc
      intro a c hac
      induction hac with
      | @single c hc =>
        rcases hstep a c hc with hc | ⟨hau, rfl⟩
        · exact .inl (.single hc)
        · exact .inr ⟨.single hau, .refl⟩
      | @tail b c _ hbc ih =>
        rcases ih with hab | ⟨hau, hrb⟩
        · rcases hstep b c hbc with hbc | ⟨hbu, rfl⟩
          · exact .inl (hab.tail hbc)
          · exact .inr ⟨hab.tail hbu, .refl⟩
        · exact .inr ⟨hau, hrb.tail hbc⟩
    intro a ha
    rcases key a a ha with ha | ⟨hau, hra⟩
    · exact h a ha
    · exact hr (Relation.TransGen.trans_right (AtOrAbove.of_rehang hr hra) hau)

/-! ## Climbing -/

/-- Whether the target is met on the way up, in so many steps at most. -/
def climb (parent : α → Option α) (target : α) : ℕ → List α → Option α → Bool
  | 0, _, _ => false
  | _ + 1, _, none => false
  | n + 1, seen, some current =>
    if current = target then true
    else if current ∈ seen then false
    else climb parent target n (current :: seen) (parent current)

/-- In a hierarchy, with steps for everything in it, the climb finds what is at or
above where it stands. -/
theorem climb_iff {target : α} {l : List α} (h : Acyclic parent)
    (hdom : ∀ a b, parent a = some b → a ∈ l) {n : ℕ} {seen : List α} {current : Option α}
    (hnodup : seen.Nodup) (hseen : seen ⊆ l) (hn : l.length + 1 ≤ n + seen.length)
    (hbelow : ∀ s ∈ seen, ∀ c ∈ current, IsAbove parent s c) :
    climb parent target n seen current = true ↔ ∃ c ∈ current, AtOrAbove parent c target := by
  induction n generalizing seen current with
  | zero =>
    have hle := (List.subperm_of_subset hnodup hseen).length_le
    omega
  | succ n ih =>
    cases current with
    | none => simp [climb]
    | some c =>
      simp only [climb, Option.mem_some_iff, exists_eq_left']
      split
      · rename_i heq
        exact iff_of_true rfl (heq ▸ .refl)
      · rename_i hne
        split
        · rename_i hmem
          exact absurd (hbelow c hmem c rfl) (h c)
        · rename_i hnot
          have hup : AtOrAbove parent c target ↔
              ∃ p ∈ parent c, AtOrAbove parent p target := by
            constructor
            · intro hc
              rcases Relation.ReflTransGen.cases_head hc with rfl | ⟨p, hp, hpt⟩
              · exact absurd rfl hne
              · exact ⟨p, hp, hpt⟩
            · rintro ⟨p, hp, hpt⟩
              exact hpt.head hp
          rw [hup]
          cases hp : parent c with
          | none => cases n <;> simp [climb]
          | some p =>
            refine ih (List.nodup_cons.mpr ⟨hnot, hnodup⟩) ?_ ?_ ?_
            · exact List.cons_subset.mpr ⟨hdom c p hp, hseen⟩
            · rw [List.length_cons]
              omega
            · intro s hs q hq
              obtain rfl := Option.some.inj hq
              rcases List.mem_cons.mp hs with rfl | hs
              · exact .single hp
              · exact (hbelow s hs c rfl).tail hp

end

end Shellius.Lib
