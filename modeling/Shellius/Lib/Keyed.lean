import Mathlib.Data.List.Perm.Subperm
import Shellius.Lib.Table

/-!
# Tables with a primary key

A `Keyed key` is a table whose rows have distinct keys; the invariant is a field,
so that no operation can leave a table with two rows of one key.  `find` reads a
row by its key, `insert` adds a row with a new key, `update` rewrites every row
in place and `delete` keeps the rows that pass a test.  Each operation has a
lemma for membership and one for `find`.
-/

universe u v

namespace Shellius.Lib

/-- A table whose rows have distinct keys. -/
structure Keyed {α : Type u} {κ : Type v} (key : α → κ) where
  rows : List α
  nodup : (rows.map key).Nodup := by decide

namespace Keyed

variable {α : Type u} {κ : Type v} {key : α → κ}

instance : Membership α (Keyed key) := ⟨fun t a ↦ a ∈ t.rows⟩

theorem mem_def {t : Keyed key} {a : α} : a ∈ t ↔ a ∈ t.rows := Iff.rfl

instance [DecidableEq α] (t : Keyed key) (a : α) : Decidable (a ∈ t) :=
  inferInstanceAs (Decidable (a ∈ t.rows))

theorem ext_rows {t t' : Keyed key} (h : t.rows = t'.rows) : t = t' := by
  cases t
  cases t'
  cases h
  rfl

instance [DecidableEq α] : DecidableEq (Keyed key) := fun t t' ↦
  decidable_of_iff (t.rows = t'.rows) ⟨ext_rows, fun h ↦ h ▸ rfl⟩

theorem ext {t : Keyed key} {a b : α} (ha : a ∈ t) (hb : b ∈ t) (h : key a = key b) : a = b :=
  List.inj_on_of_nodup_map t.nodup ha hb h

/-- The empty table. -/
def empty : Keyed key := ⟨[], List.nodup_nil⟩

instance : Inhabited (Keyed key) := ⟨empty⟩

/-- The rows with `f` applied to each. -/
def update (t : Keyed key) (f : α → α) (hf : ∀ a, key (f a) = key a) : Keyed key where
  rows := t.rows.map f
  nodup := by
    rw [List.map_map, show key ∘ f = key from funext hf]
    exact t.nodup

/-- The rows that pass a test. -/
def filter (t : Keyed key) (p : α → Bool) : Keyed key where
  rows := t.rows.filter p
  nodup := t.nodup.sublist (List.filter_sublist.map key)

/-- One more row, at the end. -/
def insert (t : Keyed key) (a : α) (ha : ∀ b ∈ t, key b ≠ key a) : Keyed key where
  rows := t.rows ++ [a]
  nodup := by
    rw [List.map_append, List.map_singleton]
    refine List.nodup_append.mpr ⟨t.nodup, List.nodup_singleton _, ?_⟩
    intro k hk j hj
    obtain ⟨b, hb, rfl⟩ := List.mem_map.mp hk
    rw [List.mem_singleton.mp hj]
    exact ha b hb

section

variable {t : Keyed key} {a b : α} {f : α → α} {p : α → Bool}

@[simp] theorem notMem_empty : ¬ a ∈ (empty : Keyed key) := List.not_mem_nil

@[simp] theorem mem_update (hf : ∀ a, key (f a) = key a) : b ∈ t.update f hf ↔ ∃ a ∈ t, f a = b := List.mem_map

@[simp] theorem mem_filter : a ∈ t.filter p ↔ a ∈ t ∧ p a = true := List.mem_filter

@[simp] theorem mem_insert (ha : ∀ b ∈ t, key b ≠ key a) :
    b ∈ t.insert a ha ↔ b ∈ t ∨ b = a := by
  rw [mem_def, insert, List.mem_append, List.mem_singleton, mem_def]

theorem exists_of_length_filter {ks : List κ} (hp : ∀ a ∈ t, p a = true → key a ∈ ks)
    (h : (t.rows.filter p).length = ks.length) : ∀ k ∈ ks, ∃ a ∈ t, key a = k ∧ p a = true := by
  have hnodup : ((t.rows.filter p).map key).Nodup := (t.filter p).nodup
  have hsub : (t.rows.filter p).map key ⊆ ks := by
    intro k hk
    obtain ⟨a, ha, rfl⟩ := List.mem_map.mp hk
    obtain ⟨ha, hpa⟩ := List.mem_filter.mp ha
    exact hp a ha hpa
  have hlen : ks.length ≤ ((t.rows.filter p).map key).length :=
    Nat.le_of_eq (h.symm.trans (List.length_map key).symm)
  have hperm := (List.subperm_of_subset hnodup hsub).perm_of_length_le hlen
  intro k hk
  obtain ⟨a, ha, rfl⟩ := List.mem_map.mp (hperm.mem_iff.mpr hk)
  obtain ⟨ha, hpa⟩ := List.mem_filter.mp ha
  exact ⟨a, ha, rfl, hpa⟩

end

variable [DecidableEq κ]

/-- The row with a key. -/
def find (t : Keyed key) (k : κ) : Option α := lookup key k t.rows

variable {t : Keyed key} {k : κ} {a : α} {f : α → α} {p : α → Bool}

theorem find_eq_some : t.find k = some a ↔ a ∈ t ∧ key a = k := by
  constructor
  · exact lookup_spec
  · rintro ⟨ha, rfl⟩
    exact lookup_of_mem t.nodup ha

theorem find_eq_none : t.find k = none ↔ ∀ a ∈ t, key a ≠ k := lookup_eq_none

theorem mem_of_find (h : t.find k = some a) : a ∈ t := (find_eq_some.mp h).1

theorem key_of_find (h : t.find k = some a) : key a = k := (find_eq_some.mp h).2

theorem find_key (h : a ∈ t) : t.find (key a) = some a := find_eq_some.mpr ⟨h, rfl⟩

theorem find_update (hf : ∀ a, key (f a) = key a) : (t.update f hf).find k = (t.find k).map f := by
  ext b
  rw [find_eq_some, mem_update, Option.map_eq_some_iff]
  constructor
  · rintro ⟨⟨a, ha, rfl⟩, hk⟩
    exact ⟨a, find_eq_some.mpr ⟨ha, by rw [← hk, hf]⟩, rfl⟩
  · rintro ⟨a, ha, rfl⟩
    rw [find_eq_some] at ha
    exact ⟨⟨a, ha.1, rfl⟩, (hf a).trans ha.2⟩

theorem find_filter : (t.filter p).find k = (t.find k).filter p := by
  ext b
  rw [find_eq_some, mem_filter, Option.filter_eq_some_iff, find_eq_some]
  tauto

theorem find_insert_of_ne (ha : ∀ b ∈ t, key b ≠ key a) (h : key a ≠ k) :
    (t.insert a ha).find k = t.find k := by
  ext b
  rw [find_eq_some, find_eq_some, mem_insert]
  constructor
  · rintro ⟨hb | rfl, hk⟩
    · exact ⟨hb, hk⟩
    · exact absurd hk h
  · rintro ⟨hb, hk⟩
    exact ⟨.inl hb, hk⟩

theorem find_insert_self (ha : ∀ b ∈ t, key b ≠ key a) :
    (t.insert a ha).find (key a) = some a :=
  find_eq_some.mpr ⟨(mem_insert ha).mpr (.inr rfl), rfl⟩

/-- Whether a key is free. -/
def isFree (t : Keyed key) (k : κ) : Bool := t.rows.all fun a ↦ key a ≠ k

theorem isFree_iff : t.isFree k = true ↔ ∀ a ∈ t, key a ≠ k := by
  simp [isFree, mem_def]

/-- One more row, unless its key is taken. -/
def insert? (t : Keyed key) (a : α) : Option (Keyed key) :=
  if h : t.isFree (key a) = true then some (t.insert a (isFree_iff.mp h)) else none

theorem insert?_eq_some {t' : Keyed key} :
    t.insert? a = some t' ↔ ∃ h : ∀ b ∈ t, key b ≠ key a, t' = t.insert a h := by
  unfold insert?
  split
  · rename_i h
    constructor
    · intro he
      exact ⟨isFree_iff.mp h, (Option.some.inj he).symm⟩
    · rintro ⟨_, rfl⟩
      rfl
  · rename_i h
    constructor
    · intro he
      cases he
    · rintro ⟨hfree, -⟩
      exact absurd (isFree_iff.mpr hfree) h

theorem insert?_eq_none : t.insert? a = none ↔ ∃ b ∈ t, key b = key a := by
  unfold insert?
  split
  · rename_i h
    refine iff_of_false (Option.some_ne_none _) ?_
    rintro ⟨b, hb, hkey⟩
    exact isFree_iff.mp h b hb hkey
  · rename_i h
    refine iff_of_true rfl ?_
    rw [isFree_iff] at h
    by_contra hno
    exact h fun b hb hkey ↦ hno ⟨b, hb, hkey⟩

/-- The row in place of the one with its key, or as one more row. -/
def upsert (t : Keyed key) (a : α) : Keyed key :=
  if h : t.isFree (key a) = true then t.insert a (isFree_iff.mp h)
  else t.update (fun b ↦ if key b = key a then a else b) (by
    intro b
    split
    · rename_i hkey
      exact hkey.symm
    · rfl)

theorem mem_upsert {b : α} : b ∈ t.upsert a ↔ b = a ∨ b ∈ t ∧ key b ≠ key a := by
  unfold upsert
  split
  · rename_i h
    rw [mem_insert, or_comm]
    refine or_congr_right ⟨fun hb ↦ ⟨hb, isFree_iff.mp h b hb⟩, And.left⟩
  · rename_i h
    obtain ⟨c, hc, hkey⟩ : ∃ c ∈ t, key c = key a := by
      rw [isFree_iff] at h
      by_contra hno
      exact h fun b hb hkey ↦ hno ⟨b, hb, hkey⟩
    rw [mem_update]
    constructor
    · rintro ⟨b, hb, rfl⟩
      by_cases hba : key b = key a
      · exact .inl (if_pos hba)
      · rw [if_neg hba]
        exact .inr ⟨hb, hba⟩
    · rintro (rfl | ⟨hb, hba⟩)
      · exact ⟨c, hc, if_pos hkey⟩
      · exact ⟨b, hb, if_neg hba⟩

/-- The row with a key, changed; a change of the key is no change of a row. -/
def change (t : Keyed key) (k : κ) (f : α → α) : Keyed key :=
  t.update (fun a ↦ if key a = k ∧ key (f a) = k then f a else a) (by
    intro a
    split
    · rename_i h
      exact h.2.trans h.1.symm
    · rfl)

theorem find_change {j : κ} (hf : ∀ a, key (f a) = key a) :
    (t.change k f).find j = if j = k then (t.find k).map f else t.find j := by
  unfold change
  rw [find_update]
  split
  · rename_i hj
    subst hj
    cases h : t.find j with
    | none => rfl
    | some a =>
      have hk := key_of_find h
      rw [Option.map_some, Option.map_some, if_pos ⟨hk, (hf a).trans hk⟩]
  · rename_i hj
    cases h : t.find j with
    | none => rfl
    | some a =>
      have hk : key a ≠ k := fun he ↦ hj ((key_of_find h).symm.trans he)
      rw [Option.map_some, if_neg fun hc ↦ hk hc.1]

end Keyed

end Shellius.Lib
