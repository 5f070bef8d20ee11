import Mathlib.Data.Set.Lattice

/-!
# Delegation of rights

Holders have sets of rights.  A step *delegates from* a set of holders, its
sources, if whatever anybody has afterwards they had before, or a source had.
Delegation composes, so that a whole run of steps with the same sources is one
delegation; and no set of holders that contains the sources ever has more rights
between them than it had.
-/

universe u v

namespace Shellius.Lib

variable {α : Type u} {ρ : Type v}

/-- The rights a set of holders has between them. -/
def held (H : α → Set ρ) (S : Set α) : Set ρ := ⋃ a ∈ S, H a

/-- All new rights come from the sources `S`. -/
def Delegates (S : Set α) (H H' : α → Set ρ) : Prop := ∀ a, H' a ⊆ H a ∪ held H S

variable {S T : Set α} {H H' H'' : α → Set ρ} {a : α} {r : ρ}

theorem mem_held : r ∈ held H S ↔ ∃ a ∈ S, r ∈ H a := by
  simp only [held, Set.mem_iUnion, exists_prop]

theorem held_mono (h : S ⊆ T) : held H S ⊆ held H T := Set.biUnion_subset_biUnion_left h

namespace Delegates

theorem refl : Delegates S H H := fun _ ↦ Set.subset_union_left

theorem mono (h : Delegates S H H') (hST : S ⊆ T) : Delegates T H H' := fun a ↦
  (h a).trans (Set.union_subset_union_right _ (held_mono hST))

theorem held_subset (h : Delegates S H H') (hST : S ⊆ T) : held H' T ⊆ held H T := by
  intro r hr
  obtain ⟨a, ha, hra⟩ := mem_held.mp hr
  rcases h a hra with hra | hrS
  · exact mem_held.mpr ⟨a, ha, hra⟩
  · exact held_mono hST hrS

theorem trans (h : Delegates S H H') (h' : Delegates S H' H'') : Delegates S H H'' := by
  intro a r hr
  rcases h' a hr with hr | hr
  · exact h a hr
  · exact .inr (h.held_subset subset_rfl hr)

end Delegates

end Shellius.Lib
