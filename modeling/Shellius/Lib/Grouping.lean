import Mathlib.Algebra.BigOperators.Group.List.Lemmas
import Mathlib.Algebra.GroupWithZero.Nat
import Mathlib.Data.List.Dedup

/-!
# A table in groups and in pages

A program that shows a table in groups counts the rows with the same columns (`tally`) and folds
the counts into a tree (`level`), with a level for each column it groups by.  The path to a group
says what its rows have in these columns: a group counts as many rows as follow its path
(`count_of_reaches`), there is such a row (`exists_of_reaches`), and every row has its groups
(`exists_reaches`).

A program that shows a table in pages skips the pages before.  All pages together are the table
(`flatMap_pages`).
-/

universe u v w

namespace Shellius.Lib

/-! ## Counts -/

section Tally

variable {γ : Type u} [DecidableEq γ]

/-- The different rows of a table, each with how often it occurs. -/
def tally (l : List γ) : List (γ × Nat) := l.dedup.map fun c ↦ (c, l.count c)

theorem sum_tally (p : γ → Bool) (l : List γ) :
    (((tally l).filter fun r ↦ p r.1).map Prod.snd).sum = l.countP p := by
  rw [tally, List.filter_map, List.map_map]
  exact List.sum_map_count_dedup_filter_eq_countP p l

theorem mem_tally {l : List γ} {r : γ × Nat} : r ∈ tally l ↔ r.1 ∈ l ∧ r.2 = l.count r.1 := by
  rw [tally, List.mem_map]
  constructor
  · rintro ⟨c, hc, rfl⟩
    exact ⟨List.mem_dedup.mp hc, rfl⟩
  · rintro ⟨hc, hn⟩
    exact ⟨r.1, List.mem_dedup.mpr hc, Prod.ext rfl hn.symm⟩

end Tally

section Classes

variable {α : Type u} {κ : Type v} [DecidableEq κ] (key : α → κ)

theorem flatMap_filter_perm {classes : List κ} (hnodup : classes.Nodup) {l : List α}
    (h : ∀ a ∈ l, key a ∈ classes) :
    (classes.flatMap fun k ↦ l.filter fun a ↦ key a = k).Perm l := by
  induction classes generalizing l with
  | nil =>
    rw [List.eq_nil_iff_forall_not_mem.mpr fun a ha ↦ List.not_mem_nil (h a ha)]
    exact List.Perm.nil
  | cons k classes ih =>
    obtain ⟨hk, hnodup⟩ := List.nodup_cons.mp hnodup
    have hrest : ∀ a ∈ l.filter fun a ↦ !decide (key a = k), key a ∈ classes := by
      intro a ha
      obtain ⟨ha, hne⟩ := List.mem_filter.mp ha
      rcases List.mem_cons.mp (h a ha) with heq | hmem
      · rw [heq] at hne
        simp at hne
      · exact hmem
    -- outside the first class the other classes lose nothing
    have hsame : ∀ k' ∈ classes, (l.filter fun a ↦ !decide (key a = k)).filter
        (fun a ↦ key a = k') = l.filter fun a ↦ key a = k' := by
      intro k' hk'
      rw [List.filter_filter]
      refine List.filter_congr fun a _ ↦ ?_
      by_cases ha : key a = k'
      · have hne : key a ≠ k := fun he ↦ hk (he ▸ ha ▸ hk')
        simp [ha, ha ▸ hne]
      · simp [ha]
    have hflat : (classes.flatMap fun k' ↦ l.filter fun a ↦ key a = k').Perm
        (l.filter fun a ↦ !decide (key a = k)) := by
      rw [← List.flatMap_congr hsame]
      exact ih hnodup hrest
    rw [List.flatMap_cons]
    exact (List.Perm.append_left _ hflat).trans (List.filter_append_perm _ l)

end Classes

/-! ## Groups -/

/-- A group: what its rows have in a column, how many they are, and the groups within it. -/
inductive Node (δ : Type v) (ν : Type w) where
  | mk (dim : δ) (value : ν) (label : String) (count : Nat) (children : List (Node δ ν))

namespace Node

variable {δ : Type v} {ν : Type w}

def dim : Node δ ν → δ
  | mk d _ _ _ _ => d

def value : Node δ ν → ν
  | mk _ x _ _ _ => x

def label : Node δ ν → String
  | mk _ _ l _ _ => l

def count : Node δ ν → Nat
  | mk _ _ _ n _ => n

def children : Node δ ν → List (Node δ ν)
  | mk _ _ _ _ ns => ns

/-- The step to a group from the one around it. -/
def step (n : Node δ ν) : δ × ν := (n.dim, n.value)

end Node

/-- How rows are grouped: what they have in a column, and how the groups of a level are shown. -/
structure Grouping (γ : Type u) (δ : Type v) (ν : Type w) where
  value : δ → γ → ν
  label : δ → ν → String
  before : δ → Node δ ν → Node δ ν → Bool

/-- A group of a tree, and the path to it. -/
inductive Reaches {δ : Type v} {ν : Type w} : List (Node δ ν) → List (δ × ν) → Node δ ν → Prop
  | here {t : List (Node δ ν)} {n : Node δ ν} (h : n ∈ t) : Reaches t [n.step] n
  | within {t : List (Node δ ν)} {n m : Node δ ν} {path : List (δ × ν)} (h : n ∈ t)
      (hm : Reaches n.children path m) : Reaches t (n.step :: path) m

namespace Grouping

variable {γ : Type u} {δ : Type v} {ν : Type w} [DecidableEq ν] (g : Grouping γ δ ν)

/-- Whether a row has, in every column of a path, what the path says. -/
def follows (path : List (δ × ν)) (c : γ) : Bool := path.all fun s ↦ g.value s.1 c = s.2

@[simp] theorem follows_nil (c : γ) : g.follows [] c = true := rfl

@[simp] theorem follows_cons (s : δ × ν) (path : List (δ × ν)) (c : γ) :
    g.follows (s :: path) c = (decide (g.value s.1 c = s.2) && g.follows path c) := rfl

/-- The rows that have something in a column. -/
def members (d : δ) (x : ν) (rows : List (γ × Nat)) : List (γ × Nat) :=
  rows.filter fun r ↦ g.value d r.1 = x

/-- The groups of counted rows, by a column for each level. -/
def level : List δ → List (γ × Nat) → List (Node δ ν)
  | [], _ => []
  | d :: ds, rows =>
    ((rows.map fun r ↦ g.value d r.1).dedup.map fun x ↦
      .mk d x (g.label d x) ((g.members d x rows).map Prod.snd).sum
        (level ds (g.members d x rows))).mergeSort (g.before d)

/-- The group of the rows that have something in a column. -/
def group (d : δ) (ds : List δ) (rows : List (γ × Nat)) (x : ν) : Node δ ν :=
  .mk d x (g.label d x) ((g.members d x rows).map Prod.snd).sum (g.level ds (g.members d x rows))

variable {g} {d : δ} {ds : List δ} {rows : List (γ × Nat)} {n : Node δ ν} {path : List (δ × ν)}

theorem mem_level :
    n ∈ g.level (d :: ds) rows ↔ ∃ r ∈ rows, n = g.group d ds rows (g.value d r.1) := by
  rw [level, List.mem_mergeSort, List.mem_map]
  constructor
  · rintro ⟨x, hx, rfl⟩
    obtain ⟨r, hr, rfl⟩ := List.mem_map.mp (List.mem_dedup.mp hx)
    exact ⟨r, hr, rfl⟩
  · rintro ⟨r, hr, rfl⟩
    exact ⟨g.value d r.1, List.mem_dedup.mpr (List.mem_map_of_mem hr), rfl⟩

theorem filter_members (x : ν) :
    (g.members d x rows).filter (fun r ↦ g.follows path r.1) =
      rows.filter fun r ↦ g.follows ((d, x) :: path) r.1 := by
  rw [members, List.filter_filter]
  exact List.filter_congr fun r _ ↦ Bool.and_comm _ _

theorem count_of_reaches (h : Reaches (g.level ds rows) path n) :
    n.count = ((rows.filter fun r ↦ g.follows path r.1).map Prod.snd).sum := by
  induction ds generalizing rows path with
  | nil =>
    cases h with
    | here h => cases h
    | within h _ => cases h
  | cons d ds ih =>
    cases h with
    | here h =>
      obtain ⟨r, -, rfl⟩ := mem_level.mp h
      refine congrArg (fun l ↦ (List.map Prod.snd l).sum) (List.filter_congr fun r' _ ↦ ?_)
      exact (Bool.and_true _).symm
    | within h hm =>
      obtain ⟨r, -, rfl⟩ := mem_level.mp h
      rw [ih hm, filter_members]
      rfl

theorem exists_of_reaches (h : Reaches (g.level ds rows) path n) :
    ∃ r ∈ rows, g.follows path r.1 = true := by
  induction ds generalizing rows path with
  | nil =>
    cases h with
    | here h => cases h
    | within h _ => cases h
  | cons d ds ih =>
    cases h with
    | here h =>
      obtain ⟨r, hr, rfl⟩ := mem_level.mp h
      refine ⟨r, hr, ?_⟩
      simp [Node.step, Node.dim, Node.value, group]
    | within h hm =>
      obtain ⟨r, -, rfl⟩ := mem_level.mp h
      obtain ⟨r', hr', hf⟩ := ih hm
      have hin := List.mem_filter.mp hr'
      refine ⟨r', hin.1, ?_⟩
      rw [follows_cons, hf, Bool.and_true]
      exact hin.2

theorem mem_of_reaches (h : Reaches (g.level ds rows) path n) : ∀ s ∈ path, s.1 ∈ ds := by
  induction ds generalizing rows path with
  | nil =>
    cases h with
    | here h => cases h
    | within h _ => cases h
  | cons d ds ih =>
    intro s hs
    cases h with
    | here h =>
      obtain ⟨r, -, rfl⟩ := mem_level.mp h
      rw [List.mem_singleton.mp hs]
      exact List.mem_cons_self
    | within h hm =>
      obtain ⟨r, -, rfl⟩ := mem_level.mp h
      rcases List.mem_cons.mp hs with rfl | hs
      · exact List.mem_cons_self
      · exact List.mem_cons_of_mem d (ih hm s hs)

theorem exists_reaches {r : γ × Nat} (hr : r ∈ rows) (hd : d ∈ ds) :
    ∃ path n, Reaches (g.level ds rows) (path ++ [(d, g.value d r.1)]) n ∧
      g.follows path r.1 = true := by
  induction ds generalizing rows with
  | nil => cases hd
  | cons e ds ih =>
    have hn : g.group e ds rows (g.value e r.1) ∈ g.level (e :: ds) rows :=
      mem_level.mpr ⟨r, hr, rfl⟩
    rcases List.mem_cons.mp hd with rfl | hd
    · exact ⟨[], _, Reaches.here hn, rfl⟩
    · have hmem : r ∈ g.members e (g.value e r.1) rows :=
        List.mem_filter.mpr ⟨hr, decide_eq_true rfl⟩
      obtain ⟨path, n, hreach, hf⟩ := ih hmem hd
      refine ⟨(e, g.value e r.1) :: path, n, Reaches.within hn hreach, ?_⟩
      rw [follows_cons, hf]
      simp

/-! ### Leaves -/

theorem group_mem (d : δ) (ds : List δ) {r : γ × Nat} (hr : r ∈ rows) :
    g.group d ds rows (g.value d r.1) ∈ g.level (d :: ds) rows := mem_level.mpr ⟨r, hr, rfl⟩

theorem level_ne_nil {r : γ × Nat} (hr : r ∈ rows) (hds : ds ≠ []) : g.level ds rows ≠ [] := by
  cases ds with
  | nil => exact absurd rfl hds
  | cons d ds => exact List.ne_nil_of_mem (group_mem d ds hr)

/-- The path of a row. -/
def pathOf (g : Grouping γ δ ν) (ds : List δ) (c : γ) : List (δ × ν) :=
  ds.map fun d ↦ (d, g.value d c)

theorem dims_of_leaf (h : Reaches (g.level ds rows) path n) (hn : n.children = []) :
    path.map Prod.fst = ds := by
  induction ds generalizing rows path with
  | nil =>
    cases h with
    | here h => cases h
    | within h _ => cases h
  | cons d ds ih =>
    cases h with
    | here h =>
      obtain ⟨r, hr, rfl⟩ := mem_level.mp h
      have hmem : r ∈ g.members d (g.value d r.1) rows :=
        List.mem_filter.mpr ⟨hr, decide_eq_true rfl⟩
      by_cases hds : ds = []
      · rw [hds]
        rfl
      · exact absurd hn (level_ne_nil hmem hds)
    | within h hm =>
      obtain ⟨r, -, rfl⟩ := mem_level.mp h
      rw [List.map_cons, ih hm]
      rfl

theorem exists_leaf {r : γ × Nat} (hr : r ∈ rows) (hds : ds ≠ []) :
    ∃ n, Reaches (g.level ds rows) (g.pathOf ds r.1) n ∧ n.children = [] := by
  induction ds generalizing rows with
  | nil => exact absurd rfl hds
  | cons d ds ih =>
    have hn := group_mem (g := g) d ds hr
    by_cases hrest : ds = []
    · subst hrest
      exact ⟨_, Reaches.here hn, rfl⟩
    · have hmem : r ∈ g.members d (g.value d r.1) rows :=
        List.mem_filter.mpr ⟨hr, decide_eq_true rfl⟩
      obtain ⟨n, hreach, hleaf⟩ := ih hmem hrest
      exact ⟨n, Reaches.within hn hreach, hleaf⟩

theorem eq_pathOf {c : γ} (hdims : path.map Prod.fst = ds) (h : g.follows path c = true) :
    path = g.pathOf ds c := by
  rw [← hdims, pathOf, List.map_map]
  refine (List.map_id path).symm.trans (List.map_congr_left fun s hs ↦ ?_)
  have hvalue := of_decide_eq_true (List.all_eq_true.mp h s hs)
  exact Prod.ext rfl hvalue.symm

theorem sum_level (d : δ) (ds : List δ) (rows : List (γ × Nat)) :
    ((g.level (d :: ds) rows).map Node.count).sum = (rows.map Prod.snd).sum := by
  have hperm : (g.level (d :: ds) rows).Perm
      (((rows.map fun r ↦ g.value d r.1).dedup).map (g.group d ds rows)) :=
    List.mergeSort_perm _ _
  have hrows := flatMap_filter_perm (fun r : γ × Nat ↦ g.value d r.1)
    (List.nodup_dedup (rows.map fun r ↦ g.value d r.1)) (l := rows)
    fun r hr ↦ List.mem_dedup.mpr (List.mem_map_of_mem hr)
  rw [(hperm.map _).sum_eq, ← (hrows.map Prod.snd).sum_eq, List.map_flatMap, List.flatMap_def,
    List.sum_flatten, List.map_map, List.map_map]
  rfl

theorem count_eq_sum_children (h : Reaches (g.level ds rows) path n) (hn : n.children ≠ []) :
    n.count = (n.children.map Node.count).sum := by
  induction ds generalizing rows path with
  | nil =>
    cases h with
    | here h => cases h
    | within h _ => cases h
  | cons d ds ih =>
    cases h with
    | here h =>
      obtain ⟨r, -, rfl⟩ := mem_level.mp h
      cases ds with
      | nil => exact absurd rfl hn
      | cons e ds => exact (sum_level e ds _).symm
    | within h hm =>
      obtain ⟨r, -, rfl⟩ := mem_level.mp h
      exact ih hm

end Grouping

/-! ## Pages -/

section Pages

variable {α : Type u}

/-- A page of a table; the first one is page 1. -/
def pageOf (limit number : Nat) (l : List α) : List α := (l.drop ((number - 1) * limit)).take limit

theorem flatMap_range_pageOf (limit : Nat) (l : List α) (n : Nat) :
    (List.range n).flatMap (fun i ↦ pageOf limit (i + 1) l) = l.take (n * limit) := by
  induction n with
  | zero => simp
  | succ n ih =>
    rw [List.range_succ, List.flatMap_append, ih, Nat.succ_mul, List.take_add]
    simp [pageOf]

/-- How many pages a table has. -/
def pageCount (total limit : Nat) : Nat := (total + limit - 1) / limit

theorem le_pageCount_mul {total limit : Nat} (h : 0 < limit) :
    total ≤ pageCount total limit * limit := by
  have hdiv := Nat.div_add_mod (total + limit - 1) limit
  have hmod := Nat.mod_lt (total + limit - 1) h
  rw [pageCount, Nat.mul_comm]
  omega

theorem flatMap_pages {limit n : Nat} {l : List α} (h : l.length ≤ n * limit) :
    (List.range n).flatMap (fun i ↦ pageOf limit (i + 1) l) = l := by
  rw [flatMap_range_pageOf, List.take_of_length_le h]

theorem exists_perm_take_iff [DecidableEq α] {cap : Nat} {l₁ l₂ : List α}
    (h₁ : l₁.Nodup) (h₂ : l₂.Nodup) :
    (∃ l : List α, l.Perm l₂ ∧ l₁.take cap = l.take cap) ↔
      (∀ a ∈ l₁.take cap, a ∈ l₂) ∧ (l₁.length < cap → ∀ a ∈ l₂, a ∈ l₁) := by
  constructor
  · rintro ⟨l, hl, htake⟩
    refine ⟨fun a ha ↦ ?_, fun hlt a ha ↦ ?_⟩
    · rw [htake] at ha
      exact hl.mem_iff.mp (List.mem_of_mem_take ha)
    · rw [List.take_of_length_le hlt.le] at htake
      have hshort : l.length ≤ cap := by
        have hlen := congrArg List.length htake
        rw [List.length_take] at hlen
        omega
      rw [htake, List.take_of_length_le hshort]
      exact hl.mem_iff.mpr ha
  · rintro ⟨hin, hall⟩
    by_cases hlt : l₁.length < cap
    · rw [List.take_of_length_le hlt.le] at hin
      exact ⟨l₁, (List.perm_ext_iff_of_nodup h₁ h₂).mpr fun a ↦ ⟨hin a, hall hlt a⟩, rfl⟩
    · -- the first rows are those that are left; the others follow in any order
      refine ⟨l₁.take cap ++ l₂.filter (· ∉ l₁.take cap), ?_, ?_⟩
      · have hnodup : (l₁.take cap ++ l₂.filter (· ∉ l₁.take cap)).Nodup :=
          List.nodup_append'.mpr ⟨(List.take_sublist cap l₁).nodup h₁, h₂.filter _,
            fun a ha ha' ↦ of_decide_eq_true (List.mem_filter.mp ha').2 ha⟩
        refine (List.perm_ext_iff_of_nodup hnodup h₂).mpr fun a ↦ ?_
        rw [List.mem_append, List.mem_filter, decide_eq_true_iff]
        constructor
        · rintro (ha | ha)
          · exact hin a ha
          · exact ha.1
        · intro ha
          by_cases hmem : a ∈ l₁.take cap
          · exact .inl hmem
          · exact .inr ⟨ha, hmem⟩
      · have hlength : (l₁.take cap).length = cap := by
          rw [List.length_take]
          omega
        rw [List.take_append_of_le_length hlength.ge, List.take_take, Nat.min_self]

end Pages

end Shellius.Lib
