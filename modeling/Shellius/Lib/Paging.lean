import Mathlib.Data.Finset.Card

/-!
# Reading a list in pages, by offset

A reader asks for one page after the other, each told by its number, while the list may change
between two requests.  It takes the rows that it has not seen, and stops at a page that is empty or
that brings nothing new, when it has as many as there are said to be, at a short page, or after so
many pages.

`walk_lists`: where rows are only put at the front, fewer at a time than a page holds, and the list
fits into the pages, every row that was there at the first request is taken once.
-/

universe u v

namespace Shellius.Lib.Paging

/-- A page, and what the answer says of the list. -/
structure Reply (α : Type u) where
  items : List α
  /-- Whether there can be another page. -/
  paged : Bool := true
  total : Int
  size : Int

/-- What has been taken. -/
structure Taken (α : Type u) (κ : Type v) where
  rows : List α := []
  seen : List κ := []

variable {α : Type u} {κ : Type v} [DecidableEq κ] (key : α → κ) (blank : κ)

/-- Take a row that has not been seen, or that nothing tells apart. -/
def Taken.add (t : Taken α κ) (x : α) : Taken α κ :=
  if key x = blank then { t with rows := t.rows ++ [x] }
  else if key x ∈ t.seen then t
  else ⟨t.rows ++ [x], t.seen ++ [key x]⟩

/-- Read so many pages, beginning with one. -/
def walk (progress : Taken α κ → Nat) (fetch : Nat → Option (Reply α)) :
    Nat → Nat → Taken α κ → Option (Taken α κ)
  | 0, _, t => some t
  | pages + 1, page, t =>
    match fetch page with
    | none => none
    | some r =>
      if r.items.isEmpty then some t
      else
        let t' := r.items.foldl (Taken.add key blank) t
        if r.paged = false ∨ t'.rows.length = t.rows.length then some t'
        else if 0 < r.total ∧ r.total ≤ progress t' then some t'
        else if r.items.length < r.size then some t'
        else walk progress fetch pages (page + 1) t'

theorem walk_congr {progress : Taken α κ → Nat} {fetch fetch' : Nat → Option (Reply α)}
    {pages page : Nat} {t : Taken α κ}
    (h : ∀ p, page ≤ p → p < page + pages → fetch p = fetch' p) :
    walk key blank progress fetch pages page t = walk key blank progress fetch' pages page t := by
  induction pages generalizing page t with
  | zero => rfl
  | succ pages ih =>
    have hrest : ∀ t', walk key blank progress fetch pages (page + 1) t' =
        walk key blank progress fetch' pages (page + 1) t' :=
      fun _ ↦ ih fun p hp hlt ↦ h p (by omega) (by omega)
    simp only [walk, h page (Nat.le_refl _) (by omega), hrest]

/-! ## A list that grows at the front -/

/-- The page of a list, with its length. -/
def pageOf (size page : Nat) (xs : List α) : Reply α where
  items := (xs.drop ((page - 1) * size)).take size
  total := xs.length
  size := size

/-- The list at each request: `size` bounds what is added between two, and the last fits. -/
structure Calm (size cap : Nat) (list : Nat → List α) : Prop where
  nodup : ∀ p, ((list p).map key).Nodup
  named : ∀ p, ∀ x ∈ list p, key x ≠ blank
  grows : ∀ p, 1 ≤ p → p < cap → ∃ added, added.length < size ∧
    (list (p + 1)).map key = added ++ (list p).map key
  fits : (list cap).length ≤ cap * size

/-- What taking the rows of a page does. -/
structure Added (t : Taken α κ) (items : List α) (t' : Taken α κ) : Prop where
  seen : t'.seen = t'.rows.map key
  nodup : t'.seen.Nodup
  mem : ∀ k, k ∈ t'.seen ↔ k ∈ t.seen ∨ k ∈ items.map key

/-- What holds once so many pages have been read. -/
structure After (size : Nat) (list : Nat → List α) (pages : Nat) (t : Taken α κ) : Prop where
  seen : t.seen = t.rows.map key
  nodup : t.seen.Nodup
  below : ∀ k ∈ t.seen, k ∈ ((list pages).map key).take (pages * size)
  covered : ∀ k ∈ ((list pages).map key).take (pages * size), k ∈ (list 1).map key → k ∈ t.seen
  drawn : ∀ x ∈ t.rows, ∃ p, x ∈ list p

/-- Everything that was there at the first request has been taken. -/
structure Whole (list : Nat → List α) (t : Taken α κ) : Prop where
  seen : t.seen = t.rows.map key
  nodup : t.seen.Nodup
  all : ∀ k ∈ (list 1).map key, k ∈ t.seen
  drawn : ∀ x ∈ t.rows, ∃ p, x ∈ list p

section

variable {key} {blank} {t : Taken α κ} {items : List α}

theorem mem_of_mem_foldl {x : α} (h : x ∈ (items.foldl (Taken.add key blank) t).rows) :
    x ∈ t.rows ∨ x ∈ items := by
  induction items generalizing t with
  | nil => exact .inl h
  | cons y items ih =>
    refine (ih h).elim (fun h ↦ ?_) fun h ↦ .inr (List.mem_cons_of_mem _ h)
    unfold Taken.add at h
    grind

theorem mem_page_of_walk {progress : Taken α κ → Nat} {fetch : Nat → Option (Reply α)} {t' : Taken α κ}
    {pages page : Nat} (h : walk key blank progress fetch pages page t = some t') :
    ∀ x ∈ t'.rows, x ∈ t.rows ∨ ∃ p, ∃ r ∈ fetch p, x ∈ r.items := by
  induction pages generalizing page t with
  | zero =>
    rw [← Option.some.inj h]
    exact fun x ↦ .inl
  | succ pages ih =>
    simp only [walk] at h
    split at h
    · cases h
    · rename_i r hr
      have hpage : ∀ x ∈ (r.items.foldl (Taken.add key blank) t).rows,
          x ∈ t.rows ∨ ∃ p, ∃ r ∈ fetch p, x ∈ r.items :=
        fun x hx ↦ (mem_of_mem_foldl hx).imp_right fun hx ↦ ⟨page, r, hr, hx⟩
      split_ifs at h
      · exact Option.some.inj h ▸ fun x ↦ .inl
      · exact Option.some.inj h ▸ hpage
      · exact Option.some.inj h ▸ hpage
      · exact Option.some.inj h ▸ hpage
      · exact fun x hx ↦ (ih h x hx).elim (hpage x) .inr

theorem added_foldl (hnamed : ∀ x ∈ items, key x ≠ blank) (hseen : t.seen = t.rows.map key)
    (hnodup : t.seen.Nodup) :
    Added key t items (items.foldl (Taken.add key blank) t) := by
  induction items generalizing t with
  | nil => exact ⟨hseen, hnodup, by simp⟩
  | cons x items ih =>
    have hx := hnamed x List.mem_cons_self
    have hrest := fun y hy ↦ hnamed y (List.mem_cons_of_mem x hy)
    rw [List.foldl_cons]
    unfold Taken.add
    rw [if_neg hx]
    split
    · rename_i hold
      obtain ⟨h₁, h₂, h₃⟩ := ih hrest hseen hnodup
      refine ⟨h₁, h₂, fun k ↦ (h₃ k).trans ?_⟩
      simp only [List.map_cons, List.mem_cons]
      grind
    · rename_i hnew
      obtain ⟨h₁, h₂, h₃⟩ := ih (t := ⟨t.rows ++ [x], t.seen ++ [key x]⟩) hrest
        (by simp [hseen]) (List.nodup_append.mpr ⟨hnodup, List.nodup_singleton _, by grind⟩)
      refine ⟨h₁, h₂, fun k ↦ (h₃ k).trans ?_⟩
      simp only [List.map_cons, List.mem_cons, List.mem_append, List.not_mem_nil, or_false]
      tauto

variable {size cap pages : Nat} {list : Nat → List α}

theorem Calm.first (h : Calm key blank size cap list) (hpages : 1 ≤ pages) (hle : pages ≤ cap) :
    (list 1).map key ⊆ (list pages).map key := by
  induction pages, hpages using Nat.le_induction with
  | base => exact List.Subset.refl _
  | succ p hp ih =>
    obtain ⟨added, -, hadded⟩ := h.grows p hp (by omega)
    rw [hadded]
    exact List.subset_append_of_subset_right _ (ih (by omega))

theorem After.whole (h : After key size list pages t) (hcalm : Calm key blank size cap list)
    (hpages : 1 ≤ pages) (hle : pages ≤ cap) (hfits : (list pages).length ≤ pages * size) :
    Whole key list t := by
  refine ⟨h.seen, h.nodup, fun k hk ↦ h.covered k ?_ hk, h.drawn⟩
  rw [List.take_of_length_le (by rwa [List.length_map])]
  exact hcalm.first hpages hle hk

theorem After.grown (h : After key size list pages t)
    (hcalm : Calm key blank size cap list) (hle : pages < cap) :
    (∀ k ∈ t.seen, k ∈ ((list (pages + 1)).map key).take ((pages + 1) * size - 1)) ∧
      ∀ k ∈ ((list (pages + 1)).map key).take (pages * size), k ∈ (list 1).map key →
        k ∈ t.seen := by
  rcases Nat.eq_zero_or_pos pages with rfl | hpos
  · simp only [Nat.zero_mul, List.take_zero, List.not_mem_nil, false_implies, implies_true,
      and_true]
    exact fun k hk ↦ absurd (h.below k hk) (by simp)
  · obtain ⟨added, hadded, hgrown⟩ := hcalm.grows pages hpos hle
    have hnodup := hcalm.nodup (pages + 1)
    rw [hgrown] at hnodup ⊢
    refine ⟨fun k hk ↦ ?_, fun k hk hfirst ↦ ?_⟩
    · have hmem : k ∈ (added ++ (list pages).map key).take (added.length + pages * size) := by
        rw [List.take_length_add_append]
        exact List.mem_append_right _ (h.below k hk)
      exact (List.take_subset_take_left _ (by rw [Nat.add_mul]; omega)) hmem
    · rw [List.take_append] at hk
      rcases List.mem_append.mp hk with hk | hk
      · exact absurd (hcalm.first hpos hle.le hfirst)
          ((List.nodup_append.mp hnodup).2.2 k (List.mem_of_mem_take hk) k · rfl)
      · exact h.covered k (List.take_subset_take_left _ (by omega) hk) hfirst

theorem After.add (h : After key size list pages t) (hcalm : Calm key blank size cap list)
    (hle : pages < cap) :
    let items := (pageOf size (pages + 1) (list (pages + 1))).items
    After key size list (pages + 1) (items.foldl (Taken.add key blank) t) ∧
      (items.length = size → 0 < size →
        (items.foldl (Taken.add key blank) t).rows.length ≠ t.rows.length) := by
  intro items
  have hitems : ∀ x ∈ items, x ∈ list (pages + 1) :=
    fun x hx ↦ List.mem_of_mem_drop (List.mem_of_mem_take hx)
  have hadded := added_foldl (fun x hx ↦ hcalm.named _ x (hitems x hx)) h.seen h.nodup
  obtain ⟨hbelow, hcovered⟩ := h.grown hcalm hle
  have htake : ((list (pages + 1)).map key).take ((pages + 1) * size) =
      ((list (pages + 1)).map key).take (pages * size) ++ items.map key := by
    rw [Nat.add_mul, Nat.one_mul, List.take_add]
    simp only [items, pageOf, Nat.add_sub_cancel, List.map_take, List.map_drop]
  refine ⟨⟨hadded.seen, hadded.nodup, fun k hk ↦ ?_, fun k hk hfirst ↦ ?_, fun x hx ↦ ?_⟩, ?_⟩
  · rcases (hadded.mem k).mp hk with hk | hk
    · exact List.take_subset_take_left _ (by omega) (hbelow k hk)
    · rw [htake]
      exact List.mem_append_right _ hk
  · rw [htake] at hk
    exact (hadded.mem k).mpr ((List.mem_append.mp hk).imp_left fun hk ↦ hcovered k hk hfirst)
  · exact (mem_of_mem_foldl hx).elim (h.drawn x) fun hx ↦ ⟨_, hitems x hx⟩
  · -- The last row of a full page was further back than all that has been seen.
    intro hfull hsize hsame
    have hlt : (pages + 1) * size - 1 < ((list (pages + 1)).map key).length := by
      simp only [items, pageOf, List.length_take, List.length_drop] at hfull
      rw [List.length_map, Nat.add_mul]
      simp only [Nat.add_sub_cancel] at hfull
      omega
    have hpos : (pages + 1) * size = (pages + 1) * size - 1 + 1 := by
      rw [Nat.add_mul]
      omega
    have hlast := List.take_succ_eq_append_getElem hlt
    rw [← hpos, htake] at hlast
    have hnew : ((list (pages + 1)).map key)[(pages + 1) * size - 1] ∉
        ((list (pages + 1)).map key).take ((pages + 1) * size - 1) := by
      intro hold
      have hnodup := (hcalm.nodup (pages + 1)).sublist (List.take_sublist ((pages + 1) * size) _)
      rw [htake, hlast] at hnodup
      exact (List.nodup_append.mp hnodup).2.2 _ hold _ List.mem_cons_self rfl
    have hmem : ((list (pages + 1)).map key)[(pages + 1) * size - 1] ∈
        (items.foldl (Taken.add key blank) t).seen := by
      have hin := List.mem_append_right (((list (pages + 1)).map key).take ((pages + 1) * size - 1))
        (List.mem_singleton_self ((list (pages + 1)).map key)[(pages + 1) * size - 1])
      rw [← hlast] at hin
      rcases List.mem_append.mp hin with hin | hin
      · exact absurd (List.take_subset_take_left _ (by rw [Nat.add_mul]; omega) hin) hnew
      · exact (hadded.mem _).mpr (.inr hin)
    have hlength := (List.subperm_of_subset (List.nodup_cons.mpr
      ⟨fun hold ↦ hnew (hbelow _ hold), h.nodup⟩)
      (List.cons_subset.mpr ⟨hmem, fun k hk ↦ (hadded.mem k).mpr (.inl hk)⟩)).length_le
    rw [List.length_cons, hadded.seen, h.seen, List.length_map, List.length_map] at hlength
    omega

theorem walk_lists (progress : Taken α κ → Nat) (hcalm : Calm key blank size cap list)
    (hprogress : ∀ t : Taken α κ, t.seen = t.rows.map key → progress t = t.seen.length)
    (hsize : 0 < size) {left : Nat} (hleft : pages + left = cap) (hcap : 0 < cap)
    (h : After key size list pages t) :
    ∃ t', walk key blank progress (fun page ↦ some (pageOf size page (list page))) left
      (pages + 1) t = some t' ∧ Whole key list t' := by
  induction left generalizing pages t with
  | zero =>
    have hpages : pages = cap := hleft
    exact ⟨t, rfl, h.whole hcalm (by omega) hpages.le (hpages ▸ hcalm.fits)⟩
  | succ left ih =>
    have hle : pages < cap := by omega
    obtain ⟨hadd, hfull⟩ := h.add hcalm hle
    have hwhole (hshort : (pageOf size (pages + 1) (list (pages + 1))).items.length < size) :=
      hadd.whole hcalm (by omega) hle (by
        simp only [pageOf, List.length_take, List.length_drop, Nat.add_sub_cancel] at hshort
        rw [Nat.add_mul]
        omega)
    have hlength : (pageOf size (pages + 1) (list (pages + 1))).items.length ≤ size :=
      List.length_take_le _ _
    simp only [walk]
    split_ifs with hempty hstop htotal hshort
    · refine ⟨t, rfl, h.seen, h.nodup, fun k hk ↦ ?_, h.drawn⟩
      have hall : (list (pages + 1)).length ≤ pages * size := by
        simpa [pageOf, hsize.ne'] using hempty
      refine (h.grown hcalm hle).2 k ?_ hk
      rw [List.take_of_length_le (by rwa [List.length_map])]
      exact hcalm.first (by omega) hle hk
    · refine ⟨_, rfl, hwhole ?_⟩
      have hsame := hstop.resolve_left (by simp [pageOf])
      exact lt_of_le_of_ne hlength fun hlen ↦ hfull hlen hsize hsame
    · -- As many have been seen as there are: they are the same.
      refine ⟨_, rfl, hadd.seen, hadd.nodup, fun k hk ↦ ?_, hadd.drawn⟩
      rw [hprogress _ hadd.seen] at htotal
      have hperm := (List.subperm_of_subset hadd.nodup
        fun k hk ↦ List.mem_of_mem_take (hadd.below k hk)).perm_of_length_le
          (by rw [List.length_map]; exact Int.ofNat_le.mp htotal.2)
      exact hperm.mem_iff.mpr (hcalm.first (by omega) hle hk)
    · exact ⟨_, rfl, hwhole (Int.ofNat_lt.mp hshort)⟩
    · exact ih (by omega) hadd

end

end Shellius.Lib.Paging
