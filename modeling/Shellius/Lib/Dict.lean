import Shellius.Lib.Table

/-!
# Maps in the order of insertion

A `Map` of JavaScript: a value that is set under a key which is there replaces the value in its
place, and one under a new key comes last.  `get_set` says what is read after a value is set,
`ofList` is the map of some entries, and its keys are distinct.
-/

universe u v

namespace Shellius.Lib

/-- The entries of a map. -/
abbrev Dict (κ : Type u) (α : Type v) := List (κ × α)

namespace Dict

variable {κ : Type u} {α : Type v} [DecidableEq κ]

/-- The value of a key. -/
def get (d : Dict κ α) (k : κ) : Option α := (lookup Prod.fst k d).map Prod.snd

def set (d : Dict κ α) (k : κ) (a : α) : Dict κ α :=
  if k ∈ d.map Prod.fst then modify Prod.fst k (fun _ ↦ (k, a)) d else d ++ [(k, a)]

/-- The map with some entries, the later of which win. -/
def ofList (entries : List (κ × α)) : Dict κ α := entries.foldl (fun d e ↦ d.set e.1 e.2) []

variable {d : Dict κ α} {k j : κ} {a b : α} {entries : List (κ × α)}

theorem get_eq_none_iff : d.get k = none ↔ k ∉ d.map Prod.fst := by
  unfold get
  rw [Option.map_eq_none_iff, lookup_eq_none, List.mem_map, not_exists]
  exact forall_congr' fun e ↦ not_and.symm

theorem mem_of_get (h : d.get k = some a) : (k, a) ∈ d := by
  obtain ⟨e, he, rfl⟩ := Option.map_eq_some_iff.mp h
  obtain ⟨hmem, rfl⟩ := lookup_spec he
  exact hmem

theorem get_of_mem (hd : (d.map Prod.fst).Nodup) (h : (k, a) ∈ d) : d.get k = some a := by
  unfold get
  rw [lookup_of_mem hd h]
  rfl

theorem get_set : (d.set k a).get j = if j = k then some a else d.get j := by
  unfold set
  split
  · rename_i hk
    have hkey : ∀ e : κ × α, e.1 = k → (k, a).1 = k := fun _ _ ↦ rfl
    unfold get
    rw [lookup_modify hkey]
    split
    · rename_i hj
      obtain ⟨e, he, rfl⟩ := List.mem_map.mp hk
      cases hlookup : lookup Prod.fst e.1 d with
      | none => exact absurd rfl (lookup_eq_none.mp hlookup e he)
      | some e' => rfl
    · rfl
  · rename_i hk
    have hnone : d.get k = none := get_eq_none_iff.mpr hk
    unfold get at hnone ⊢
    rw [lookup_append_singleton]
    by_cases hj : j = k
    · rw [if_pos hj, hj, Option.map_eq_none_iff.mp hnone, if_pos rfl]
      rfl
    · rw [if_neg hj, if_neg (Ne.symm hj), Option.or_none]

theorem map_fst_set :
    (d.set k a).map Prod.fst =
      if k ∈ d.map Prod.fst then d.map Prod.fst else d.map Prod.fst ++ [k] := by
  unfold set
  split
  · exact map_modify fun e _ hk ↦ hk.symm
  · exact List.map_append

theorem nodup_set (hd : (d.map Prod.fst).Nodup) : ((d.set k a).map Prod.fst).Nodup := by
  rw [map_fst_set]
  split
  · exact hd
  · rename_i hk
    exact List.nodup_append.mpr ⟨hd, List.nodup_singleton k, by
      rintro x hx y hy rfl
      exact hk (List.mem_singleton.mp hy ▸ hx)⟩

theorem nodup_ofList : ((ofList entries).map Prod.fst).Nodup := by
  have key : ∀ (entries : List (κ × α)) (d : Dict κ α), (d.map Prod.fst).Nodup →
      ((entries.foldl (fun d e ↦ d.set e.1 e.2) d).map Prod.fst).Nodup := by
    intro entries
    induction entries with
    | nil => exact fun d hd ↦ hd
    | cons e entries ih => exact fun d hd ↦ ih _ (nodup_set hd)
  exact key entries [] List.nodup_nil

theorem fst_mem_ofList {e : κ × α} (h : e ∈ entries) : e.1 ∈ (ofList entries).map Prod.fst := by
  have key : ∀ (entries : List (κ × α)) (d : Dict κ α), e.1 ∈ d.map Prod.fst ∨ e ∈ entries →
      e.1 ∈ (entries.foldl (fun d e ↦ d.set e.1 e.2) d).map Prod.fst := by
    intro entries
    induction entries with
    | nil => exact fun d hd ↦ hd.resolve_right List.not_mem_nil
    | cons e' entries ih =>
      intro d hd
      refine ih _ ?_
      rw [map_fst_set]
      grind
  exact key entries [] (.inr h)

theorem mem_of_mem_set {e : κ × α} (h : e ∈ d.set k a) : e ∈ d ∨ e = (k, a) := by
  unfold set at h
  split at h
  · obtain ⟨he, -⟩ | ⟨e', -, -, rfl⟩ := mem_modify.mp h
    · exact .inl he
    · exact .inr rfl
  · obtain he | he := List.mem_append.mp h
    · exact .inl he
    · exact .inr (List.mem_singleton.mp he)

theorem mem_of_mem_ofList {e : κ × α} (h : e ∈ ofList entries) : e ∈ entries := by
  have key : ∀ (entries : List (κ × α)) (d : Dict κ α),
      e ∈ entries.foldl (fun d e ↦ d.set e.1 e.2) d → e ∈ d ∨ e ∈ entries := by
    intro entries
    induction entries with
    | nil => exact fun d hd ↦ .inl hd
    | cons e' entries ih =>
      intro d hd
      obtain he | he := ih _ hd
      · obtain he | rfl := mem_of_mem_set he
        · exact .inl he
        · exact .inr List.mem_cons_self
      · exact .inr (List.mem_cons_of_mem e' he)
  obtain he | he := key entries [] h
  · exact absurd he List.not_mem_nil
  · exact he

theorem get_ofList (h : (k, a) ∈ entries) (hall : ∀ e ∈ entries, e.1 = k → e.2 = a) :
    (ofList entries).get k = some a := by
  have key : ∀ (entries : List (κ × α)) (d : Dict κ α), (∀ e ∈ entries, e.1 = k → e.2 = a) →
      (d.get k = some a ∨ (k, a) ∈ entries) →
      Dict.get (entries.foldl (fun d e ↦ d.set e.1 e.2) d) k = some a := by
    intro entries
    induction entries with
    | nil => exact fun d _ hd ↦ hd.resolve_right List.not_mem_nil
    | cons e entries ih =>
      intro d hall hd
      refine ih _ (fun e' he' ↦ hall e' (List.mem_cons_of_mem e he')) ?_
      rw [get_set]
      by_cases he : k = e.1
      · rw [if_pos he]
        exact .inl (congrArg some (hall e List.mem_cons_self he.symm))
      · rw [if_neg he]
        obtain hd | hd := hd
        · exact .inl hd
        · obtain rfl | hd := List.mem_cons.mp hd
          · exact absurd rfl he
          · exact .inr hd
  exact key entries [] hall (.inr h)

theorem get_ofList_map {key : α → κ} {l : List α} (hl : (l.map key).Nodup) :
    (ofList (l.map fun a ↦ (key a, a))).get k = lookup key k l := by
  cases hlookup : lookup key k l with
  | none =>
    rw [get_eq_none_iff]
    intro hk
    obtain ⟨e, he, rfl⟩ := List.mem_map.mp hk
    obtain ⟨a, ha, rfl⟩ := List.mem_map.mp (mem_of_mem_ofList he)
    exact lookup_eq_none.mp hlookup a ha rfl
  | some a =>
    obtain ⟨ha, rfl⟩ := lookup_spec hlookup
    refine get_ofList (List.mem_map_of_mem ha) ?_
    intro e he hk
    obtain ⟨b, hb, rfl⟩ := List.mem_map.mp he
    exact List.inj_on_of_nodup_map hl hb ha hk

end Dict

end Shellius.Lib
