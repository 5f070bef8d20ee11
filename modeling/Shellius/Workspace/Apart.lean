import Shellius.Lib.Slots
import Shellius.Workspace.Layout

/-!
# No tab is in two places

After any number of calls of the reducers no tab is in two panes, be it of one split or of
two, and no two splits have the same identifier (`Distinct`).  Three things that a reducer
may do to the groups keep this: it may *narrow* them, that is leave groups out and tabs out
of groups; it may *put* a tab into one group after it has taken it out of the others; and it
may *add* a group of tabs that are in no other.
-/

namespace Shellius.Layout

open Lib

variable {τ : Type*}

/-! ## Panes -/

section Panes

variable {p : Panes τ} {i : Int} {t : τ}

theorem get_natCast (p : Panes τ) (n : Nat) : p.get n = (p.cells[n]?).join := by
  simp [Panes.get]

theorem get_eq_some (hp : p.stray = []) :
    p.get i = some t ↔ ∃ n : Nat, i = n ∧ p.cells[n]? = some (some t) := by
  constructor
  · intro h
    by_cases hi : i < 0
    · simp [Panes.get, hi, hp] at h
    · obtain ⟨n, rfl⟩ := Int.eq_ofNat_of_zero_le (by omega : 0 ≤ i)
      rw [get_natCast, Option.join_eq_some_iff] at h
      exact ⟨n, rfl, h⟩
  · rintro ⟨n, rfl, h⟩
    rw [get_natCast, h, Option.join_some]

theorem mem_members : t ∈ p.members ↔ some t ∈ p.cells := List.reduceOption_mem_iff

theorem mem_group_members {g : Group τ} : t ∈ g.members ↔ t ∈ g.panes.members := Iff.rfl

theorem mem_of_get (hp : p.stray = []) (h : p.get i = some t) : t ∈ p.members := by
  obtain ⟨n, -, hn⟩ := (get_eq_some hp).mp h
  exact mem_reduceOption_iff.mpr ⟨n, hn⟩

theorem members_alone (t : τ) (n : Nat) :
    (⟨some t :: List.replicate n none, []⟩ : Panes τ).members = [t] := by
  rw [Panes.members, List.reduceOption_cons_of_some, List.reduceOption_replicate_none]

theorem members_pair (first : Bool) (x y : τ) :
    (⟨if first then [some x, some y] else [some y, some x], []⟩ : Panes τ).members =
      if first then [x, y] else [y, x] := by
  cases first <;> rfl

theorem nodup_pair {x y : τ} (h : x ≠ y) (first : Bool) :
    (⟨if first then [some x, some y] else [some y, some x], []⟩ : Panes τ).members.Nodup := by
  rw [members_pair]
  cases first <;> simp [h, h.symm]

theorem mem_pair {x y z : τ} {first : Bool} :
    z ∈ (⟨if first then [some x, some y] else [some y, some x], []⟩ : Panes τ).members ↔
      z = x ∨ z = y := by
  rw [members_pair]
  cases first <;> simp [or_comm]

section

variable [DecidableEq τ]

theorem exists_indexOf {α : Type*} [DecidableEq α] {l : List α} {a : α} (h : a ∈ l) :
    ∃ n : Nat, indexOf l a = n ∧ l[n]? = some a :=
  ⟨l.idxOf a, if_pos h, List.getElem?_idxOf h⟩

theorem get_indexOf (h : some t ∈ p.cells) : p.get (indexOf p.cells (some t)) = some t := by
  obtain ⟨n, hn, hget⟩ := exists_indexOf h
  rw [hn, get_natCast, hget, Option.join_some]

theorem indexOf_nonneg {α : Type*} [DecidableEq α] {l : List α} {a : α} (h : a ∈ l) :
    0 ≤ indexOf l a := by
  simp [indexOf, h]

theorem indexOf_lt {α : Type*} [DecidableEq α] {l : List α} {a : α} (h : l ≠ []) :
    indexOf l a < l.length := by
  have hpos := List.length_pos_of_ne_nil h
  unfold indexOf
  split
  · rename_i ha
    exact_mod_cast List.idxOf_lt_length_of_mem ha
  · omega

theorem thins_without (p : Panes τ) (t : τ) : Thins p.cells (p.without t).cells := by
  refine thins_map ?_ p.cells
  intro o a h
  split at h
  · cases h
  · exact h

theorem notMem_without (p : Panes τ) (t : τ) : t ∉ (p.without t).members := by
  rw [mem_members]
  intro h
  obtain ⟨o, -, ho⟩ := List.mem_map.mp h
  split at ho
  · cases ho
  · rename_i hne
    exact hne ho

end

end Panes

/-! ## Groups without common tabs -/

/-- A group that has only tabs of another, and its identifier. -/
structure Narrower (g g' : Group τ) : Prop where
  id : g'.id = g.id
  subset : g'.members ⊆ g.members
  nodup : g.members.Nodup → g'.members.Nodup
  plain : g.panes.stray = [] → g'.panes.stray = []

/-- Every tab is in at most one pane of at most one group, and every group has its own
identifier, of a kind. -/
structure Distinct (I : GroupId → Prop) (gs : List (Group τ)) : Prop where
  known : ∀ g ∈ gs, I g.id
  ids : (gs.map fun g ↦ g.id).Nodup
  once : ∀ g ∈ gs, g.members.Nodup
  apart : ∀ g ∈ gs, ∀ h ∈ gs, ∀ t ∈ g.members, t ∈ h.members → g.id = h.id
  plain : ∀ g ∈ gs, g.panes.stray = []

structure Narrows (gs gs' : List (Group τ)) : Prop where
  ids : (gs'.map fun g ↦ g.id).Sublist (gs.map fun g ↦ g.id)
  origin : ∀ g' ∈ gs', ∃ g ∈ gs, Narrower g g'

theorem Narrower.refl (g : Group τ) : Narrower g g :=
  ⟨rfl, List.Subset.refl _, fun h ↦ h, fun h ↦ h⟩

theorem Narrower.trans {g g' g'' : Group τ} (h : Narrower g g') (h' : Narrower g' g'') :
    Narrower g g'' where
  id := h'.id.trans h.id
  subset := List.Subset.trans h'.subset h.subset
  nodup := h'.nodup ∘ h.nodup
  plain := h'.plain ∘ h.plain

theorem narrower_focus (g : Group τ) (i : Int) : Narrower g { g with focusedPane := i } :=
  ⟨rfl, List.Subset.refl _, fun h ↦ h, fun h ↦ h⟩

theorem narrower_emptied (g : Group τ) (i : Nat) :
    Narrower g { g with panes := ⟨g.panes.cells.set i none, []⟩, focusedPane := i } where
  id := rfl
  subset := (thins_set_none g.panes.cells i).subset
  nodup := (thins_set_none g.panes.cells i).nodup
  plain _ := rfl

section

variable {I J : GroupId → Prop} {gs gs' : List (Group τ)} {g h next : Group τ} {t : τ}

theorem Distinct.eq_of_id (hd : Distinct I gs) (hg : g ∈ gs) (hh : h ∈ gs) (he : g.id = h.id) :
    g = h :=
  List.inj_on_of_nodup_map hd.ids hg hh he

theorem Distinct.eq (hd : Distinct I gs) (hg : g ∈ gs) (hh : h ∈ gs) (ht : t ∈ g.members)
    (ht' : t ∈ h.members) : g = h :=
  hd.eq_of_id hg hh (hd.apart g hg h hh t ht ht')

theorem distinct_nil : Distinct I ([] : List (Group τ)) where
  known _ h := absurd h List.not_mem_nil
  ids := List.nodup_nil
  once _ h := absurd h List.not_mem_nil
  apart _ h := absurd h List.not_mem_nil
  plain _ h := absurd h List.not_mem_nil

theorem Distinct.mono (hd : Distinct I gs) (hIJ : ∀ g ∈ gs, I g.id → J g.id) : Distinct J gs :=
  { hd with known := fun g hg ↦ hIJ g hg (hd.known g hg) }

theorem Distinct.narrow (hd : Distinct I gs) (hn : Narrows gs gs') : Distinct I gs' where
  known g' hg' := by
    obtain ⟨g, hg, hgg'⟩ := hn.origin g' hg'
    rw [hgg'.id]
    exact hd.known g hg
  ids := hd.ids.sublist hn.ids
  once g' hg' := by
    obtain ⟨g, hg, hgg'⟩ := hn.origin g' hg'
    exact hgg'.nodup (hd.once g hg)
  apart g' hg' h' hh' t ht ht' := by
    obtain ⟨g, hg, hgg'⟩ := hn.origin g' hg'
    obtain ⟨h, hh, hhh'⟩ := hn.origin h' hh'
    rw [hgg'.id, hhh'.id]
    exact hd.apart g hg h hh t (hgg'.subset ht) (hhh'.subset ht')
  plain g' hg' := by
    obtain ⟨g, hg, hgg'⟩ := hn.origin g' hg'
    exact hgg'.plain (hd.plain g hg)

theorem Narrows.refl (gs : List (Group τ)) : Narrows gs gs :=
  ⟨List.Sublist.refl _, fun g hg ↦ ⟨g, hg, .refl g⟩⟩

theorem Narrows.trans {gs'' : List (Group τ)} (h : Narrows gs gs') (h' : Narrows gs' gs'') :
    Narrows gs gs'' where
  ids := h'.ids.trans h.ids
  origin g'' hg'' := by
    obtain ⟨g', hg', hn'⟩ := h'.origin g'' hg''
    obtain ⟨g, hg, hn⟩ := h.origin g' hg'
    exact ⟨g, hg, hn.trans hn'⟩

theorem narrows_filter (p : Group τ → Bool) (gs : List (Group τ)) : Narrows gs (gs.filter p) where
  ids := List.filter_sublist.map _
  origin g hg := ⟨g, List.mem_of_mem_filter hg, .refl g⟩

theorem narrows_filterMap {f : Group τ → Option (Group τ)}
    (hf : ∀ g ∈ gs, ∀ g', f g = some g' → Narrower g g') : Narrows gs (gs.filterMap f) where
  ids := by
    induction gs with
    | nil => exact List.Sublist.refl _
    | cons g gs ih =>
      have hrest := ih fun h hh ↦ hf h (List.mem_cons_of_mem g hh)
      cases hg : f g with
      | none =>
        rw [List.filterMap_cons_none hg]
        exact hrest.cons _
      | some g' =>
        rw [List.filterMap_cons_some hg, List.map_cons, List.map_cons,
          (hf g List.mem_cons_self g' hg).id]
        exact hrest.cons_cons _
  origin g' hg' := by
    obtain ⟨g, hg, hfg⟩ := List.mem_filterMap.mp hg'
    exact ⟨g, hg, hf g hg g' hfg⟩

theorem ne_of_narrows {newId : GroupId} (hn : Narrows gs gs')
    (hnew : ∀ g ∈ gs, g.id ≠ newId) : ∀ g ∈ gs', g.id ≠ newId := by
  intro g hg
  obtain ⟨g₀, hg₀, hnar⟩ := hn.origin g hg
  rw [hnar.id]
  exact hnew g₀ hg₀

/-! ### Replacing a group -/

theorem mem_replaceGroup : h ∈ replaceGroup gs next ↔
    (h = next ∧ ∃ g ∈ gs, g.id = next.id) ∨ h ∈ gs ∧ h.id ≠ next.id := by
  rw [replaceGroup, List.mem_map]
  constructor
  · rintro ⟨g, hg, rfl⟩
    split
    · exact .inl ⟨rfl, g, hg, ‹_›⟩
    · exact .inr ⟨hg, ‹_›⟩
  · rintro (⟨rfl, g, hg, hid⟩ | ⟨hh, hid⟩)
    · exact ⟨g, hg, if_pos hid⟩
    · exact ⟨h, hh, if_neg hid⟩

theorem map_id_replaceGroup :
    (replaceGroup gs next).map (fun g ↦ g.id) = gs.map fun g ↦ g.id := by
  rw [replaceGroup, List.map_map]
  refine List.map_congr_left fun g _ ↦ ?_
  rw [Function.comp_apply]
  split
  · exact (‹g.id = next.id›).symm
  · rfl

theorem Distinct.replace (hd : Distinct I gs) (honce : next.members.Nodup)
    (hplain : next.panes.stray = [])
    (hapart : ∀ t ∈ next.members, ∀ h ∈ gs, t ∈ h.members → h.id = next.id) :
    Distinct I (replaceGroup gs next) where
  known g hg := by
    obtain ⟨rfl, g₀, hg₀, hid⟩ | ⟨hg, -⟩ := mem_replaceGroup.mp hg
    · exact hid ▸ hd.known g₀ hg₀
    · exact hd.known g hg
  ids := by rw [map_id_replaceGroup]; exact hd.ids
  once g hg := by
    obtain ⟨rfl, -⟩ | ⟨hg, -⟩ := mem_replaceGroup.mp hg
    · exact honce
    · exact hd.once g hg
  apart g hg h hh t ht ht' := by
    obtain ⟨rfl, -⟩ | ⟨hold, -⟩ := mem_replaceGroup.mp hg
    · obtain ⟨rfl, -⟩ | ⟨hold', -⟩ := mem_replaceGroup.mp hh
      · rfl
      · exact (hapart t ht h hold' ht').symm
    · obtain ⟨rfl, -⟩ | ⟨hold', -⟩ := mem_replaceGroup.mp hh
      · exact hapart t ht' g hold ht
      · exact hd.apart g hold h hold' t ht ht'
  plain g hg := by
    obtain ⟨rfl, -⟩ | ⟨hg, -⟩ := mem_replaceGroup.mp hg
    · exact hplain
    · exact hd.plain g hg

theorem Distinct.replace_narrower (hd : Distinct I gs) (hg : g ∈ gs) (hn : Narrower g next) :
    Distinct I (replaceGroup gs next) := by
  refine hd.replace (hn.nodup (hd.once g hg)) (hn.plain (hd.plain g hg)) ?_
  intro t ht h hh ht'
  rw [hn.id]
  exact hd.apart h hh g hg t ht' (hn.subset ht)

theorem Distinct.add (hd : Distinct I gs) (hknown : I next.id) (hid : ∀ g ∈ gs, g.id ≠ next.id)
    (honce : next.members.Nodup) (hplain : next.panes.stray = [])
    (hapart : ∀ t ∈ next.members, ∀ g ∈ gs, t ∉ g.members) : Distinct I (gs ++ [next]) where
  known g hg := by
    obtain hg | hg := List.mem_append.mp hg
    · exact hd.known g hg
    · rw [List.mem_singleton.mp hg]
      exact hknown
  ids := by
    rw [List.map_append, List.map_singleton]
    refine List.nodup_append.mpr ⟨hd.ids, List.nodup_singleton _, ?_⟩
    rintro _ hi _ hj
    obtain ⟨g, hg, rfl⟩ := List.mem_map.mp hi
    rw [List.mem_singleton.mp hj]
    exact hid g hg
  once g hg := by
    obtain hg | hg := List.mem_append.mp hg
    · exact hd.once g hg
    · rw [List.mem_singleton.mp hg]
      exact honce
  apart g hg h hh t ht ht' := by
    obtain hold | hnew := List.mem_append.mp hg
    · obtain hold' | hnew' := List.mem_append.mp hh
      · exact hd.apart g hold h hold' t ht ht'
      · obtain rfl := List.mem_singleton.mp hnew'
        exact absurd ht (hapart t ht' g hold)
    · obtain rfl := List.mem_singleton.mp hnew
      obtain hold' | hnew' := List.mem_append.mp hh
      · exact absurd ht' (hapart t ht h hold')
      · rw [List.mem_singleton.mp hnew']
  plain g hg := by
    obtain hg | hg := List.mem_append.mp hg
    · exact hd.plain g hg
    · rw [List.mem_singleton.mp hg]
      exact hplain

end

/-! ## Groups of two and more -/

section

variable [DecidableEq τ] {I : GroupId → Prop} {gs : List (Group τ)} {g g' h next : Group τ} {t : τ}
  {keep : Option GroupId}

theorem mem_of_findGroup (h : findGroup gs (some t) = some g) : g ∈ gs ∧ t ∈ g.members := by
  rw [findGroup, Option.bind_some] at h
  have hp := List.find?_some h
  exact ⟨List.mem_of_find?_eq_some h, mem_members.mpr (of_decide_eq_true hp)⟩

theorem Distinct.findGroup_eq_some (hd : Distinct I gs) :
    findGroup gs (some t) = some g ↔ g ∈ gs ∧ t ∈ g.members := by
  constructor
  · exact mem_of_findGroup
  · rintro ⟨hg, ht⟩
    cases hf : findGroup gs (some t) with
    | none =>
      rw [findGroup, Option.bind_some] at hf
      exact absurd (decide_eq_true (mem_members.mp ht)) (List.find?_eq_none.mp hf g hg)
    | some h =>
      obtain ⟨hh, hth⟩ := mem_of_findGroup hf
      rw [hd.eq hh hg hth ht]

theorem findGroup_eq_none : findGroup gs (some t) = none ↔ ∀ g ∈ gs, t ∉ g.members := by
  rw [findGroup, Option.bind_some, List.find?_eq_none]
  simp [Group.members, mem_members]

theorem compactGroup_eq_some (h : compactGroup g = some g') :
    Narrower g g' ∧ g'.members = g.members ∧ 2 ≤ g.members.length := by
  unfold compactGroup at h
  dsimp only at h
  split at h
  · cases h
  · rename_i hlen
    split at h
    · obtain rfl := Option.some.inj h
      have hmembers : (⟨g.members.map some, []⟩ : Panes τ).members = g.members :=
        reduceOption_map_some _
      have hnodup : g.members.Nodup → (⟨g.members.map some, []⟩ : Panes τ).members.Nodup :=
        fun h ↦ hmembers.symm ▸ h
      exact ⟨⟨rfl, fun x hx ↦ hmembers ▸ hx, hnodup, fun _ ↦ rfl⟩, hmembers, by omega⟩
    · obtain rfl := Option.some.inj h
      exact ⟨.refl g, rfl, by omega⟩

theorem narrower_without (g : Group τ) (t : τ) : Narrower g { g with panes := g.panes.without t } where
  id := rfl
  subset := (thins_without g.panes t).subset
  nodup := (thins_without g.panes t).nodup
  plain _ := rfl

theorem detachFrom_eq_some (h : detachFrom t keep g = some g') :
    (t ∉ g.members ∧ g' = g) ∨
    (t ∈ g.members ∧ some g.id = keep ∧ g' = { g with panes := g.panes.without t }) ∨
    (t ∈ g.members ∧ some g.id ≠ keep ∧
      compactGroup { g with panes := g.panes.without t } = some g') := by
  unfold detachFrom at h
  split at h
  · rename_i ht
    have ht := mem_members.mpr ht
    dsimp only at h
    split at h
    · exact .inr (.inl ⟨ht, ‹_›, (Option.some.inj h).symm⟩)
    · exact .inr (.inr ⟨ht, ‹_›, h⟩)
  · rename_i ht
    exact .inl ⟨fun hmem ↦ ht (mem_members.mp hmem), (Option.some.inj h).symm⟩

theorem detachFrom_narrower (h : detachFrom t keep g = some g') :
    Narrower g g' ∧ t ∉ g'.members := by
  obtain ⟨ht, rfl⟩ | ⟨-, -, rfl⟩ | ⟨-, -, hc⟩ := detachFrom_eq_some h
  · exact ⟨.refl _, ht⟩
  · exact ⟨narrower_without g t, notMem_without g.panes t⟩
  · obtain ⟨hn, hm, -⟩ := compactGroup_eq_some hc
    refine ⟨(narrower_without g t).trans hn, ?_⟩
    rw [hm]
    exact notMem_without g.panes t

theorem narrows_detachTab (gs : List (Group τ)) (t : τ) (keep : Option GroupId) :
    Narrows gs (detachTab gs t keep) :=
  narrows_filterMap fun _ _ _ h ↦ (detachFrom_narrower h).1

theorem mem_detachTab : g' ∈ detachTab gs t keep ↔ ∃ g ∈ gs, detachFrom t keep g = some g' :=
  List.mem_filterMap

theorem notMem_detachTab (h : g' ∈ detachTab gs t keep) : t ∉ g'.members := by
  obtain ⟨g, -, hg⟩ := mem_detachTab.mp h
  exact (detachFrom_narrower hg).2

theorem Distinct.put (hd : Distinct I gs) (hg : g ∈ gs) (hid : next.id = g.id)
    (honce : next.members.Nodup) (hplain : next.panes.stray = [])
    (hmem : ∀ x ∈ next.members, x = t ∨ x ∈ g.members) :
    Distinct I (replaceGroup (detachTab gs t keep) next) := by
  have hn := narrows_detachTab gs t keep
  refine (hd.narrow hn).replace honce hplain ?_
  intro x hx h hh hxh
  obtain ⟨h₀, hh₀, hnar⟩ := hn.origin h hh
  obtain rfl | hxg := hmem x hx
  · exact absurd hxh (notMem_detachTab hh)
  · rw [hnar.id, hid]
    exact hd.apart h₀ hh₀ g hg x (hnar.subset hxh) hxg

end

/-! ## The reducers keep tabs apart -/

section

variable [DecidableEq τ] {I : GroupId → Prop} {ws : Workspace τ} {g next : Group τ} {t : τ}
  {newId : GroupId}

theorem current_group (ws : Workspace τ) :
    (currentView ws).group = findGroup ws.groups ws.activeTabId := by
  unfold currentView
  cases findGroup ws.groups ws.activeTabId <;> rfl

theorem currentView_of_some (h : (currentView ws).group = some g) :
    currentView ws = ⟨some g, g.mode, g.panes, g.focusedPane⟩ := by
  rw [current_group] at h
  rw [currentView, h]

theorem Distinct.current_eq_some (hd : Distinct I ws.groups) :
    (currentView ws).group = some g ↔
      ∃ a, ws.activeTabId = some a ∧ g ∈ ws.groups ∧ a ∈ g.members := by
  rw [current_group]
  cases ha : ws.activeTabId with
  | none => simp [findGroup]
  | some a => simp [hd.findGroup_eq_some]

theorem current_eq_none : (currentView ws).group = none ↔
    ∀ a, ws.activeTabId = some a → ∀ g ∈ ws.groups, a ∉ g.members := by
  rw [current_group]
  cases ha : ws.activeTabId with
  | none => simp [findGroup]
  | some a => simp [findGroup_eq_none]

theorem Distinct.showTab (hd : Distinct I ws.groups) (tab : Option τ) :
    Distinct I (showTab ws tab).groups := by
  cases tab with
  | none => exact hd
  | some t =>
    refine Distinct.narrow ?_ (narrows_filter _ _)
    cases hf : findGroup ws.groups (some t) with
    | none => exact hd
    | some g =>
      exact hd.replace_narrower (hd.findGroup_eq_some.mp hf).1 (narrower_focus g _)

theorem getElem?_swap {l : List (Option τ)} (hl : l.reduceOption.Nodup) {i n : Nat} {x : τ}
    (h : ((if some t ∈ l then l.set (l.idxOf (some t)) (l[i]?).join else l).set i (some t))[n]? =
      some (some x)) :
    (n = i ∧ x = t) ∨ (n ≠ i ∧ x ≠ t ∧ (l[n]? = some (some x) ∨
      (some t ∈ l ∧ n = l.idxOf (some t) ∧ l[i]? = some (some x)))) := by
  rw [nodup_reduceOption_iff] at hl
  rw [List.getElem?_set] at h
  split at h
  · rename_i hi
    simp only [Option.ite_none_right_eq_some, Option.some.injEq] at h
    exact .inl ⟨hi.symm, h.2.symm⟩
  · rename_i hi
    have hni : n ≠ i := fun he ↦ hi he.symm
    refine .inr ⟨hni, ?_⟩
    split at h
    · rename_i ht
      have hold : l[l.idxOf (some t)]? = some (some t) := List.getElem?_idxOf ht
      rw [List.getElem?_set] at h
      split at h
      · rename_i hn
        split at h
        · have hx : l[i]? = some (some x) := Option.join_eq_some_iff.mp (Option.some.inj h)
          refine ⟨?_, .inr ⟨ht, hn.symm, hx⟩⟩
          rintro rfl
          exact hni (hn.symm.trans (hl _ _ _ hold hx))
        · cases h
      · rename_i hn
        refine ⟨?_, .inl h⟩
        rintro rfl
        exact hn (hl _ _ _ hold h)
    · rename_i ht
      refine ⟨?_, .inl h⟩
      rintro rfl
      exact ht (List.mem_of_getElem? h)

theorem nodup_swap {l : List (Option τ)} (hl : l.reduceOption.Nodup) (i : Nat) (t : τ) :
    ((if some t ∈ l then l.set (l.idxOf (some t)) (l[i]?).join else l).set i
      (some t)).reduceOption.Nodup := by
  rw [nodup_reduceOption_iff]
  intro m n x hm hn
  have hidx := nodup_reduceOption_iff.mp hl
  obtain ⟨hmi, hxm⟩ | ⟨hmi, hxm, hm⟩ := getElem?_swap hl hm
  · obtain ⟨hni, -⟩ | ⟨-, hxn, -⟩ := getElem?_swap hl hn
    · rw [hmi, hni]
    · exact absurd hxm hxn
  · obtain ⟨-, hxn⟩ | ⟨hni, -, hn⟩ := getElem?_swap hl hn
    · exact absurd hxn hxm
    · obtain hm | ⟨-, hold, hm⟩ := hm
      · obtain hn | ⟨-, -, hn⟩ := hn
        · exact hidx _ _ _ hm hn
        · exact absurd (hidx _ _ _ hm hn) hmi
      · obtain hn | ⟨-, hold', -⟩ := hn
        · exact absurd (hidx _ _ _ hn hm) hni
        · rw [hold, hold']

theorem Distinct.fillPane (hd : Distinct I ws.groups) (hg : g ∈ ws.groups) (t : τ) (i : Nat) :
    Distinct I (fillPane ws g t i).groups := by
  unfold Layout.fillPane
  dsimp only
  split
  · exact hd.showTab _
  · refine hd.put hg rfl (nodup_swap (hd.once g hg) i t) rfl ?_
    intro x hx
    obtain ⟨n, hn⟩ := mem_reduceOption_iff.mp hx
    obtain ⟨-, rfl⟩ | ⟨-, -, hn | ⟨-, -, hn⟩⟩ := getElem?_swap (hd.once g hg) hn
    · exact .inl rfl
    · exact .inr (mem_reduceOption_iff.mpr ⟨n, hn⟩)
    · exact .inr (mem_reduceOption_iff.mpr ⟨i, hn⟩)

theorem Distinct.closePane (hd : Distinct I ws.groups) (hg : g ∈ ws.groups) (i : Nat) :
    Distinct I (closePane ws g i).groups := by
  unfold Layout.closePane
  dsimp only
  split
  · rename_i compacted hc
    have hn := (narrower_emptied g i).trans (compactGroup_eq_some hc).1
    exact Distinct.showTab (hd.replace_narrower hg hn) _
  · exact Distinct.showTab (hd.narrow (narrows_filter _ _)) _

theorem Distinct.mem_current (hd : Distinct I ws.groups) (h : (currentView ws).group = some g) :
    g ∈ ws.groups := by
  obtain ⟨a, -, hg, -⟩ := hd.current_eq_some.mp h
  exact hg

theorem Distinct.placeInPane (hd : Distinct I ws.groups) (tab : Option τ) (i : Int) :
    Distinct I (placeInPane ws tab i).groups := by
  unfold Layout.placeInPane
  cases hview : (currentView ws).group with
  | none => exact hd.showTab tab
  | some g =>
    have hg := hd.mem_current hview
    dsimp only
    split
    · exact hd
    · cases tab with
      | some t => exact hd.fillPane hg t i.toNat
      | none => exact hd.closePane hg i.toNat

theorem Distinct.selectTab (hd : Distinct I ws.groups) (t : τ) (fillEmptyPane : Bool) :
    Distinct I (selectTab ws t fillEmptyPane).groups := by
  unfold Layout.selectTab
  split
  · split
    · exact hd.placeInPane _ _
    · exact hd.showTab _
  · exact hd.showTab _

theorem Distinct.addTab (hd : Distinct I ws.groups) (t : τ) (focus : Bool) :
    Distinct I (addTab ws t focus).groups := by
  unfold Layout.addTab
  split
  · split
    · split
      · exact hd.placeInPane _ _
      · exact hd.showTab _
    · exact hd
  · split
    · exact hd.showTab _
    · split
      · exact hd
      · exact hd

theorem Distinct.detachTab (hd : Distinct I ws.groups) (t : τ) (keep : Option GroupId) :
    Distinct I (detachTab ws.groups t keep) := hd.narrow (narrows_detachTab _ _ _)

theorem Distinct.removeTab (hd : Distinct I ws.groups) (t : τ) (remaining : List τ) :
    Distinct I (removeTab ws t remaining).groups := by
  unfold Layout.removeTab
  dsimp only
  split
  · exact hd.detachTab t none
  · exact Distinct.showTab (hd.detachTab t none) _

/-- The tabs that fit into a split in another mode. -/
def fitting (g : Group τ) (count : Nat) : List τ :=
  match g.panes.get g.focusedPane with
  | some tab =>
    if tab ∈ g.members.take count then g.members.take count
    else (g.members.take count).take (count - 1) ++ [tab]
  | none => g.members.take count

theorem members_reflow (g : Group τ) (mode : Mode) :
    (reflow g mode).members = (fitting g (paneCount mode)).take (paneCount mode) :=
  reduceOption_range_map _ _

theorem fitting_subset (hplain : g.panes.stray = []) (count : Nat) :
    fitting g count ⊆ g.members := by
  unfold fitting
  split
  · rename_i t hget
    split
    · exact List.take_subset _ _
    · intro x hx
      obtain hx | hx := List.mem_append.mp hx
      · exact List.mem_of_mem_take (List.mem_of_mem_take hx)
      · rw [List.mem_singleton.mp hx]
        exact mem_of_get hplain hget
  · exact List.take_subset _ _

theorem nodup_fitting (honce : g.members.Nodup) (count : Nat) : (fitting g count).Nodup := by
  unfold fitting
  have htake := honce.sublist (List.take_sublist count g.members)
  split
  · split
    · exact htake
    · rename_i t _ ht
      refine List.nodup_append.mpr ⟨htake.sublist (List.take_sublist _ _), List.nodup_singleton t, ?_⟩
      rintro x hx y hy rfl
      rw [List.mem_singleton.mp hy] at hx
      exact ht (List.mem_of_mem_take hx)
  · exact htake

theorem narrower_reflow (hplain : g.panes.stray = []) (mode : Mode) :
    Narrower g (reflow g mode) where
  id := rfl
  subset := by
    rw [members_reflow]
    exact List.Subset.trans (List.take_subset _ _) (fitting_subset hplain _)
  nodup honce := by
    rw [members_reflow]
    exact (nodup_fitting honce _).sublist (List.take_sublist _ _)
  plain _ := rfl

theorem Distinct.setLayoutMode (hd : Distinct I ws.groups) (mode : Option Mode)
    (hknown : I newId) (hnew : ∀ g ∈ ws.groups, g.id ≠ newId) :
    Distinct I (setLayoutMode ws mode newId).groups := by
  unfold Layout.setLayoutMode
  split
  · exact hd
  · rename_i mode
    split
    · exact hd
    · split
      · rename_i hview
        split
        · exact hd
        · rename_i t hactive
          have honce := members_alone t (paneCount mode - 1) ▸ List.nodup_singleton t
          refine hd.add hknown hnew honce rfl ?_
          intro x hx h hh
          have hx := List.mem_singleton.mp (members_alone t (paneCount mode - 1) ▸ (mem_group_members.mp hx))
          exact hx ▸ current_eq_none.mp hview t hactive h hh
      · rename_i g hview
        have hg := hd.mem_current hview
        split
        · exact hd.narrow (narrows_filter _ _)
        · exact hd.replace_narrower hg (narrower_reflow (hd.plain g hg) _)

theorem Distinct.focusPane (hd : Distinct I ws.groups) (i : Int) :
    Distinct I (focusPane ws i).groups := by
  unfold Layout.focusPane
  split
  · exact hd
  · rename_i g hview
    split
    · exact hd
    · exact hd.replace_narrower (hd.mem_current hview) (narrower_focus g i)

end

/-! ## Dropping a tab across a split -/

/-- Three panes of a grid that is empty otherwise. -/
def threeOf (a b c : Nat) (u v w : Option τ) : Panes τ :=
  (((⟨[none, none, none, none], []⟩ : Panes τ).put a u).put b v).put c w

theorem join_put (p : Panes τ) (n m : Nat) (v : Option τ) :
    ((p.put n v).cells[m]?).join = if m = n then v else (p.cells[m]?).join := by
  unfold Panes.put
  rw [if_neg (by omega), Int.toNat_natCast]
  split
  · dsimp only
    rw [List.getElem?_set]
    split
    · rename_i hlt hnm
      rw [if_pos hnm.symm, Option.join_some]
    · rename_i hnm
      rw [if_neg fun h ↦ hnm h.symm]
  · rename_i hle
    dsimp only
    have hlen : (p.cells ++ List.replicate (n - p.cells.length) none).length = n := by
      rw [List.length_append, List.length_replicate]
      omega
    rw [List.getElem?_append, hlen, List.getElem?_append, List.getElem?_replicate,
      List.getElem?_singleton]
    grind

theorem stray_put (p : Panes τ) (n : Nat) (v : Option τ) : (p.put n v).stray = p.stray := by
  unfold Panes.put
  rw [if_neg (by omega)]
  split <;> rfl

section

variable {a b c : Nat} {u v w : Option τ}

theorem stray_threeOf : (threeOf a b c u v w).stray = [] := by
  rw [threeOf, stray_put, stray_put, stray_put]

theorem join_threeOf (m : Nat) : ((threeOf a b c u v w).cells[m]?).join =
    if m = c then w else if m = b then v else if m = a then u else none := by
  have hempty : (([none, none, none, none] : List (Option τ))[m]?).join = none := by
    rcases m with _ | _ | _ | _ | m <;> simp
  rw [threeOf, join_put, join_put, join_put, hempty]

theorem nodup_threeOf (huv : ∀ x, u = some x → v ≠ some x) (huw : ∀ x, u = some x → w ≠ some x)
    (hvw : ∀ x, v = some x → w ≠ some x) : (threeOf a b c u v w).members.Nodup := by
  refine nodup_reduceOption_iff.mpr ?_
  intro m n x hm hn
  have hm : ((threeOf a b c u v w).cells[m]?).join = some x := by rw [hm, Option.join_some]
  have hn : ((threeOf a b c u v w).cells[n]?).join = some x := by rw [hn, Option.join_some]
  rw [join_threeOf] at hm hn
  have := huv x
  have := huw x
  have := hvw x
  grind

theorem mem_threeOf {x : τ} (h : x ∈ (threeOf a b c u v w).members) :
    u = some x ∨ v = some x ∨ w = some x := by
  obtain ⟨m, hm⟩ := mem_reduceOption_iff.mp h
  have hm : ((threeOf a b c u v w).cells[m]?).join = some x := by rw [hm, Option.join_some]
  rw [join_threeOf] at hm
  grind

end

section

variable [DecidableEq τ] {I : GroupId → Prop} {ws : Workspace τ} {g next : Group τ} {t : τ}
  {newId : GroupId} {zone : Zone}

theorem get_without {n : Nat} {x : τ} (h : (g.panes.without t).get n = some x) :
    x ≠ t ∧ g.panes.cells[n]? = some (some x) := by
  rw [get_natCast, Option.join_eq_some_iff] at h
  refine ⟨?_, thins_without g.panes t n x h⟩
  rintro rfl
  exact notMem_without g.panes x (mem_reduceOption_iff.mpr ⟨n, h⟩)

theorem promote_eq (g : Group τ) (t : τ) (n : Nat) (zone : Zone) :
    ∃ (a b c : Nat) (first : Bool), a ≠ c ∧ b ≠ c ∧ a ≠ b ∧
      promote g t n zone =
        { g with
          mode := .grid
          panes := threeOf a b c
            (if first then some t else (g.panes.without t).get n)
            (if first then (g.panes.without t).get n else some t)
            ((g.panes.without t).get (if n = 0 then 1 else 0 : Nat))
          focusedPane := (if first then a else b : Nat) } ∧
      (n < 2 → a < 4 ∧ b < 4 ∧ c < 4) := by
  have hother : (if (n : Int) = 0 then (1 : Int) else 0) = ((if n = 0 then 1 else 0 : Nat) : Int) := by
    split <;> split <;> first | rfl | omega
  by_cases hmode : g.mode = .splitRight
  · refine ⟨n, 2 + n, if n = 0 then 1 else 0, zone = .top, ?_, ?_, ?_, ?_, ?_⟩
    · split <;> omega
    · split <;> omega
    · omega
    · unfold promote
      dsimp only
      have hsecond : 2 + (n : Int) = ((2 + n : Nat) : Int) := by omega
      rw [if_pos hmode, if_pos hmode, hother, hsecond, threeOf]
      by_cases hz : zone = .top <;> simp [hz]
    · intro hn
      split <;> omega
  · refine ⟨n * 2, n * 2 + 1, (if n = 0 then 1 else 0) * 2, zone = .left, ?_, ?_, ?_, ?_, ?_⟩
    · split <;> omega
    · split <;> omega
    · omega
    · unfold promote
      dsimp only
      have hfirst : (n : Int) * 2 = ((n * 2 : Nat) : Int) := by omega
      have hsecond : ((n * 2 : Nat) : Int) + 1 = ((n * 2 + 1 : Nat) : Int) := by omega
      have hlast : ((if n = 0 then 1 else 0 : Nat) : Int) * 2 =
          (((if n = 0 then 1 else 0) * 2 : Nat) : Int) := by omega
      rw [if_neg hmode, if_neg hmode, hother, hfirst, hsecond, hlast, threeOf]
      by_cases hz : zone = .left <;> simp [hz]
    · intro hn
      split <;> omega

end

section

variable [DecidableEq τ] {I : GroupId → Prop} {ws : Workspace τ} {g next : Group τ} {t : τ}
  {newId : GroupId} {zone : Zone}

theorem members_promote (g : Group τ) (t : τ) (n : Nat) (zone : Zone) :
    (∀ x ∈ (promote g t n zone).members, x = t ∨ x ∈ g.members) ∧
      (g.members.Nodup → (promote g t n zone).members.Nodup) := by
  obtain ⟨a, b, c, first, -, -, -, he, -⟩ := promote_eq g t n zone
  have hmembers : (promote g t n zone).members = (threeOf a b c
      (if first then some t else (g.panes.without t).get n)
      (if first then (g.panes.without t).get n else some t)
      ((g.panes.without t).get (if n = 0 then 1 else 0 : Nat))).members := by
    rw [he]
    rfl
  rw [hmembers]
  constructor
  · intro x hx
    have hold : ∀ m : Nat, (g.panes.without t).get m = some x → x ∈ g.members := fun m hm ↦
      mem_reduceOption_iff.mpr ⟨m, (get_without hm).2⟩
    obtain h | h | h := mem_threeOf hx
    · split at h
      · exact .inl (Option.some.inj h).symm
      · exact .inr (hold n h)
    · split at h
      · exact .inr (hold n h)
      · exact .inl (Option.some.inj h).symm
    · exact .inr (hold _ h)
  · intro honce
    have hne : ∀ (m : Nat) (x : τ), some t = some x → (g.panes.without t).get m ≠ some x := by
      rintro m _ ⟨⟩ h
      exact (get_without h).1 rfl
    have hapart : ∀ x, (g.panes.without t).get n = some x →
        (g.panes.without t).get (if n = 0 then 1 else 0 : Nat) ≠ some x := by
      intro x h h'
      have hsame := nodup_reduceOption_iff.mp honce _ _ _ (get_without h).2 (get_without h').2
      split at hsame <;> omega
    cases first with
    | true => exact nodup_threeOf (hne n) (hne _) hapart
    | false =>
      exact nodup_threeOf (fun x h h' ↦ hne n x h' h) hapart (hne _)

theorem Distinct.promote (hd : Distinct I ws.groups) (hg : g ∈ ws.groups) (t : τ) (n : Nat)
    (zone : Zone) :
    Distinct I (replaceGroup (Layout.detachTab ws.groups t (some g.id)) (promote g t n zone)) := by
  obtain ⟨a, b, c, first, -, -, -, he, -⟩ := promote_eq g t n zone
  have hplain : (Layout.promote g t n zone).panes.stray = [] := by rw [he, stray_threeOf]
  have hid : (Layout.promote g t n zone).id = g.id := by rw [he]
  obtain ⟨hmem, honce⟩ := members_promote g t n zone
  exact hd.put hg hid (honce (hd.once g hg)) hplain hmem

/-- A drop across a split names one of its panes. -/
def DropsOnPane (ws : Workspace τ) (i : Int) (zone : Zone) : Prop :=
  ∀ g, (currentView ws).group = some g → goesIntoPane g.mode zone = false → 0 ≤ i

theorem notMem_detach_detach {gs : List (Group τ)} {x y : τ} (h : g ∈ detachTab (detachTab gs x none) y none) :
    x ∉ g.members ∧ y ∉ g.members := by
  refine ⟨?_, notMem_detachTab h⟩
  obtain ⟨g₀, hg₀, hn⟩ := (narrows_detachTab _ _ _).origin g h
  exact fun hx ↦ notMem_detachTab hg₀ (hn.subset hx)

theorem Distinct.dropTab (hd : Distinct I ws.groups) (t : τ) (i : Int) (zone : Zone)
    (hknown : I newId) (hnew : ∀ g ∈ ws.groups, g.id ≠ newId) (hi : DropsOnPane ws i zone) :
    Distinct I (dropTab ws t i zone newId).groups := by
  unfold Layout.dropTab
  split
  · split
    · exact hd.showTab _
    · rename_i current hactive
      split
      · exact hd.showTab _
      · rename_i hne
        have hne : current ≠ t := fun h ↦ hne (.inl h)
        have hn := (narrows_detachTab ws.groups t none).trans (narrows_detachTab _ current none)
        refine (hd.narrow hn).add hknown (ne_of_narrows hn hnew) ?_ rfl ?_
        · exact nodup_pair hne.symm _
        · intro x hx g hg
          obtain ⟨ht, hc⟩ := notMem_detach_detach hg
          have hx : x = t ∨ x = current := mem_pair.mp hx
          obtain rfl | rfl := hx
          · exact ht
          · exact hc
  · rename_i g hview
    split
    · exact hd.placeInPane _ _
    · rename_i hinto
      obtain ⟨n, rfl⟩ := Int.eq_ofNat_of_zero_le (hi g hview (by simpa using hinto))
      exact hd.promote (hd.mem_current hview) t n zone

/-- The tab is dropped on the pane it is in, or on the one in focus. -/
def SplitsPane (ws : Workspace τ) (t : τ) (direction : Direction) : Prop :=
  ∀ g, (currentView ws).group = some g → some t ∉ g.panes.cells →
    goesIntoPane g.mode (if direction = .right then .right else .bottom) = false → 0 ≤ g.focusedPane

theorem Distinct.splitWith (hd : Distinct I ws.groups) (t : τ) (direction : Direction)
    (hknown : I newId) (hnew : ∀ g ∈ ws.groups, g.id ≠ newId) (hi : SplitsPane ws t direction) :
    Distinct I (splitWith ws t direction newId).groups := by
  unfold Layout.splitWith
  dsimp only
  split
  · rename_i hview
    split
    · have hn := narrows_detachTab ws.groups t none
      refine (hd.narrow hn).add hknown (ne_of_narrows hn hnew) ?_ rfl ?_
      · exact List.nodup_singleton t
      · intro x hx g hg
        rw [List.mem_singleton.mp (show x ∈ [t] from hx)]
        exact notMem_detachTab hg
    · refine hd.dropTab _ _ _ hknown hnew ?_
      intro g hg
      rw [hview] at hg
      cases hg
  · rename_i g hview
    split
    · rename_i ht
      exact hd.dropTab _ _ _ hknown hnew fun _ _ _ ↦ indexOf_nonneg ht
    · rename_i ht
      refine hd.dropTab _ _ _ hknown hnew ?_
      intro h hh hinto
      obtain rfl := Option.some.inj (hview.symm.trans hh)
      exact hi g hview ht hinto

theorem Distinct.removeFromSplit (hd : Distinct I ws.groups) (t : τ) :
    Distinct I (removeFromSplit ws t).groups := by
  unfold Layout.removeFromSplit
  split
  · exact hd.detachTab t none
  · exact hd

theorem Distinct.ungroup (hd : Distinct I ws.groups) (id : GroupId) :
    Distinct I (ungroup ws id).groups := by
  unfold Layout.ungroup
  split
  · exact hd
  · exact hd.narrow (narrows_filter _ _)

theorem narrower_cleaned (alive seen : List τ) (groups : List (Group τ)) (g : Group τ) :
    Narrower g (cleaned alive seen groups g) := by
  have hthins : Thins g.panes.cells (cleaned alive seen groups g).panes.cells := by
    intro n x hn
    obtain ⟨i, hi, he⟩ := Option.map_eq_some_iff.mp (List.getElem?_map.symm.trans hn)
    obtain ⟨hlt, rfl⟩ := List.getElem?_eq_some_iff.mp hi
    rw [List.getElem_range] at he
    exact Option.join_eq_some_iff.mp (Option.filter_eq_some_iff.mp he).1
  exact ⟨rfl, hthins.subset, hthins.nodup, fun _ ↦ rfl⟩

/-- What `sanitize` keeps of the groups; what it has seen before it comes to a group is of
other groups. -/
theorem sanitizeGroups_eq (alive : List τ) {gs : List (Group τ)}
    (hids : (gs.map fun g ↦ g.id).Nodup) (seen : List τ) (groups : List (Group τ)) :
    ∃ out, sanitizeGroups alive gs seen groups = groups ++ out ∧ Narrows gs out ∧
      ∀ g' ∈ out, ∃ g ∈ gs, ∃ seen' done, g.mode ≠ .single ∧
        compactGroup (cleaned alive seen' done g) = some g' ∧
        ∀ x ∈ seen', x ∈ seen ∨ ∃ h ∈ gs, h.id ≠ g.id ∧ x ∈ h.members := by
  induction gs generalizing seen groups with
  | nil => exact ⟨[], (List.append_nil _).symm, .refl [], fun _ h ↦ absurd h List.not_mem_nil⟩
  | cons g gs ih =>
    obtain ⟨hg, hids⟩ := List.nodup_cons.mp hids
    -- a group that is left out
    have hskip : ∃ out, sanitizeGroups alive gs seen groups = groups ++ out ∧
        Narrows (g :: gs) out ∧ ∀ g' ∈ out, ∃ g₀ ∈ g :: gs, ∃ seen' done, g₀.mode ≠ .single ∧
          compactGroup (cleaned alive seen' done g₀) = some g' ∧
          ∀ x ∈ seen', x ∈ seen ∨ ∃ h ∈ g :: gs, h.id ≠ g₀.id ∧ x ∈ h.members := by
      obtain ⟨out, he, hn, hout⟩ := ih hids seen groups
      refine ⟨out, he, ⟨hn.ids.cons _, fun g' hg' ↦ ?_⟩, fun g' hg' ↦ ?_⟩
      · obtain ⟨g₀, hg₀, hnar⟩ := hn.origin g' hg'
        exact ⟨g₀, List.mem_cons_of_mem _ hg₀, hnar⟩
      · obtain ⟨g₀, hg₀, seen', done, hmode, hc, hseen⟩ := hout g' hg'
        refine ⟨g₀, List.mem_cons_of_mem _ hg₀, seen', done, hmode, hc, fun x hx ↦ ?_⟩
        exact (hseen x hx).imp_right fun ⟨h, hh, hne, hxh⟩ ↦
          ⟨h, List.mem_cons_of_mem _ hh, hne, hxh⟩
    unfold sanitizeGroups
    split
    · exact hskip
    · rename_i hmode
      split
      · exact hskip
      · rename_i compacted hc
        have hnar := (narrower_cleaned alive seen groups g).trans (compactGroup_eq_some hc).1
        obtain ⟨out, he, hn, hout⟩ := ih hids (seen ++ compacted.members) (groups ++ [compacted])
        refine ⟨compacted :: out, by rw [he, List.append_assoc, List.singleton_append],
          ⟨?_, fun g' hg' ↦ ?_⟩, fun g' hg' ↦ ?_⟩
        · rw [List.map_cons, List.map_cons, hnar.id]
          exact hn.ids.cons_cons _
        · obtain rfl | hg' := List.mem_cons.mp hg'
          · exact ⟨g, List.mem_cons_self, hnar⟩
          · obtain ⟨g₀, hg₀, hnar₀⟩ := hn.origin g' hg'
            exact ⟨g₀, List.mem_cons_of_mem _ hg₀, hnar₀⟩
        · obtain rfl | hg' := List.mem_cons.mp hg'
          · exact ⟨g, List.mem_cons_self, seen, groups, hmode, hc, fun x hx ↦ .inl hx⟩
          · obtain ⟨g₀, hg₀, seen', done, hmode₀, hc₀, hseen⟩ := hout g' hg'
            refine ⟨g₀, List.mem_cons_of_mem _ hg₀, seen', done, hmode₀, hc₀, fun x hx ↦ ?_⟩
            obtain hx | ⟨h, hh, hne, hxh⟩ := hseen x hx
            · obtain hx | hx := List.mem_append.mp hx
              · exact .inl hx
              · refine .inr ⟨g, List.mem_cons_self, ?_, hnar.subset hx⟩
                exact fun hid ↦ hg (List.mem_map.mpr ⟨g₀, hg₀, hid.symm⟩)
            · exact .inr ⟨h, List.mem_cons_of_mem _ hh, hne, hxh⟩

theorem Distinct.sanitize (hd : Distinct I ws.groups) (tabIds : List τ) :
    Distinct I (sanitize ws tabIds).groups := by
  obtain ⟨out, he, hn, -⟩ := sanitizeGroups_eq tabIds hd.ids [] []
  rw [List.nil_append] at he
  unfold Layout.sanitize
  dsimp only
  rw [he]
  exact (hd.narrow hn).narrow (narrows_filter _ _)

/-! ### Runs -/

/-- An index of a pane is not negative where a drop makes a grid of it. -/
def NamesPanes (ws : Workspace τ) : Action τ → Prop
  | .dropTab _ i zone => DropsOnPane ws i zone
  | .splitWith t direction => SplitsPane ws t direction
  | _ => True

theorem Distinct.reduce (hd : Distinct I ws.groups) (hknown : I newId)
    (hnew : ∀ g ∈ ws.groups, g.id ≠ newId) {a : Action τ} (ha : NamesPanes ws a) :
    Distinct I (reduce ws newId a).groups := by
  cases a with
  | addTab t focus => exact hd.addTab t focus
  | removeTab t remaining => exact hd.removeTab t remaining
  | selectTab t fill => exact hd.selectTab t fill
  | detachTab t keep => exact hd.detachTab t keep
  | placeInPane tab i => exact hd.placeInPane tab i
  | setLayoutMode mode => exact hd.setLayoutMode mode hknown hnew
  | focusPane i => exact hd.focusPane i
  | dropTab t i zone => exact hd.dropTab t i zone hknown hnew ha
  | splitWith t direction => exact hd.splitWith t direction hknown hnew ha
  | removeFromSplit t => exact hd.removeFromSplit t
  | ungroup id => exact hd.ungroup id
  | sanitize tabIds => exact hd.sanitize tabIds

/-- The identifiers of the groups have been made by the calls so far. -/
def Session.Distinct (s : Session τ) : Prop :=
  Layout.Distinct (fun id ↦ id.seq ≤ s.seq) s.ws.groups

theorem Session.Distinct.reduce {s : Session τ} (hd : s.Distinct) (time : Nat) {a : Action τ}
    (ha : NamesPanes s.ws a) :
    Layout.Distinct (fun id ↦ id.seq ≤ s.seq ∨ id = ⟨time, s.seq + 1⟩)
      (Layout.reduce s.ws ⟨time, s.seq + 1⟩ a).groups := by
  refine Layout.Distinct.reduce (Layout.Distinct.mono hd fun _ _ h ↦ .inl h) (.inr rfl) ?_ ha
  intro g hg hid
  have hle := hd.known g hg
  rw [hid] at hle
  exact Nat.not_succ_le_self _ hle

theorem Session.Distinct.step {s s' : Session τ} {e : Nat × Action τ} (hd : s.Distinct)
    (ha : NamesPanes s.ws e.2) (h : step s e = some s') : s'.Distinct := by
  obtain rfl := Option.some.inj h
  have hreduced := hd.reduce e.1 ha
  refine hreduced.mono ?_
  intro g hg hid
  dsimp only
  split
  · obtain hle | heq := hid
    · exact Nat.le_succ_of_le hle
    · rw [heq]
  · rename_i hnew
    obtain hle | heq := hid
    · exact hle
    · exact absurd (List.mem_map.mpr ⟨g, hg, heq⟩) hnew

end

end Shellius.Layout
