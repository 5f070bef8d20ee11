import Shellius.Workspace.Apart

/-!
# Splits stay in shape

Every split has as many panes as its mode asks for, one of them is in focus, and a split
that is not on the screen has two tabs at least.  The reducers keep this, unless they are
handed an index that is none of a pane, or `detachTab` is asked to keep a split that has too
few tabs left.
-/

namespace Shellius.Layout

open Lib

variable {τ : Type*}

/-- A split has the panes of its mode, and one of them is in focus. -/
structure Group.Shaped (g : Group τ) : Prop where
  split : g.mode ≠ .single
  length : g.panes.cells.length = paneCount g.mode
  focus : 0 ≤ g.focusedPane ∧ g.focusedPane < g.panes.cells.length

/-- Every group is in shape, and has two tabs or the active one. -/
structure Tidy (ws : Workspace τ) : Prop where
  shaped : ∀ g ∈ ws.groups, g.Shaped
  offscreen : ∀ g ∈ ws.groups, (∃ a, ws.activeTabId = some a ∧ a ∈ g.members) ∨ 2 ≤ g.members.length

theorem paneCount_pos (mode : Mode) : 0 < paneCount mode := by
  cases mode <;> decide

theorem two_le_paneCount {mode : Mode} (h : mode ≠ .single) : 2 ≤ paneCount mode := by
  cases mode with
  | single => exact absurd rfl h
  | splitRight | splitDown | grid => decide

variable {I : GroupId → Prop} {ws : Workspace τ} {gs : List (Group τ)} {g g' next : Group τ}
  {t : τ} {keep : Option GroupId} {newId : GroupId} {zone : Zone}

theorem shaped_replaceGroup (hs : ∀ g ∈ gs, g.Shaped) (hnext : next.Shaped) :
    ∀ g ∈ replaceGroup gs next, g.Shaped := by
  intro g hg
  obtain ⟨rfl, -⟩ | ⟨hold, -⟩ := mem_replaceGroup.mp hg
  · exact hnext
  · exact hs g hold

theorem tidy_add (hs : ∀ g ∈ gs, g.Shaped) (htwo : ∀ g ∈ gs, 2 ≤ g.members.length)
    (hnext : next.Shaped) (ht : t ∈ next.members) : Tidy ⟨gs ++ [next], some t⟩ where
  shaped g hg := by
    obtain hg | hg := List.mem_append.mp hg
    · exact hs g hg
    · rw [List.mem_singleton.mp hg]
      exact hnext
  offscreen g hg := by
    obtain hg | hg := List.mem_append.mp hg
    · exact .inr (htwo g hg)
    · rw [List.mem_singleton.mp hg]
      exact .inl ⟨t, rfl, ht⟩

theorem length_put (p : Panes τ) {n : Nat} (v : Option τ) (hn : n < p.cells.length) :
    (p.put n v).cells.length = p.cells.length := by
  unfold Panes.put
  rw [if_neg (by omega), Int.toNat_natCast, if_pos hn]
  exact List.length_set

structure Session.Inv (s : Session τ) : Prop where
  distinct : s.Distinct
  tidy : Tidy s.ws

theorem Session.inv_empty : Session.Inv ({} : Session τ) where
  distinct := distinct_nil
  tidy := ⟨fun _ h ↦ absurd h List.not_mem_nil, fun _ h ↦ absurd h List.not_mem_nil⟩

variable [DecidableEq τ]

/-! ## Groups -/

theorem Group.Shaped.without (hg : g.Shaped) (t : τ) :
    Group.Shaped { g with panes := g.panes.without t } where
  split := hg.split
  length := by
    rw [← hg.length]
    exact List.length_map _
  focus := by
    have hlen : (g.panes.without t).cells.length = g.panes.cells.length := List.length_map _
    rw [hlen]
    exact hg.focus

theorem Group.Shaped.compact (hg : g.Shaped) (h : compactGroup g = some g') : g'.Shaped := by
  unfold compactGroup at h
  dsimp only at h
  split at h
  · cases h
  · split at h
    · rename_i hgrid
      obtain rfl := Option.some.inj h
      have hlen : (g.members.map some).length = 2 := by rw [List.length_map, hgrid.2]
      refine ⟨Mode.noConfusion, hlen, le_max_left _ _, ?_⟩
      refine max_lt (by rw [hlen]; decide) (indexOf_lt ?_)
      intro hnil
      rw [hnil] at hlen
      cases hlen
    · obtain rfl := Option.some.inj h
      exact hg

theorem Group.Shaped.detachFrom (hg : g.Shaped) (h : detachFrom t keep g = some g') :
    g'.Shaped := by
  obtain ⟨-, rfl⟩ | ⟨-, -, rfl⟩ | ⟨-, -, hc⟩ := detachFrom_eq_some h
  · exact hg
  · exact hg.without t
  · exact (hg.without t).compact hc

theorem shaped_detachTab (hs : ∀ g ∈ gs, g.Shaped) (t : τ) (keep : Option GroupId) :
    ∀ g ∈ detachTab gs t keep, g.Shaped := by
  intro g' hg'
  obtain ⟨g, hg, hfrom⟩ := mem_detachTab.mp hg'
  exact (hs g hg).detachFrom hfrom

theorem two_detachTab (h : ∀ g ∈ gs, 2 ≤ g.members.length) (t : τ) :
    ∀ g ∈ detachTab gs t none, 2 ≤ g.members.length := by
  intro g' hg'
  obtain ⟨g, hg, hfrom⟩ := mem_detachTab.mp hg'
  obtain ⟨-, rfl⟩ | ⟨-, hkeep, -⟩ | ⟨-, -, hc⟩ := detachFrom_eq_some hfrom
  · exact h _ hg
  · cases hkeep
  · obtain ⟨-, hm, hlen⟩ := compactGroup_eq_some hc
    rw [hm]
    exact hlen

/-! ## What is on the screen -/

theorem offscreen_pruneOffscreen (gs : List (Group τ)) (active : Option τ) :
    ∀ g ∈ pruneOffscreen gs active, (∃ a, active = some a ∧ a ∈ g.members) ∨ 2 ≤ g.members.length := by
  intro g hg
  obtain ⟨-, hp⟩ := List.mem_filter.mp hg
  obtain hon | hlen := of_decide_eq_true hp
  · cases active with
    | none => cases hon
    | some a => exact .inl ⟨a, rfl, (mem_of_findGroup hon).2⟩
  · exact .inr hlen

theorem Tidy.two_of_ne (h : Tidy ws) (hd : Distinct I ws.groups)
    (hview : (currentView ws).group = some g) (hg' : g' ∈ ws.groups) (hne : g'.id ≠ g.id) :
    2 ≤ g'.members.length := by
  obtain ⟨a, ha, hg, hag⟩ := hd.current_eq_some.mp hview
  obtain ⟨b, hb, hbg⟩ | hlen := h.offscreen g' hg'
  · obtain rfl := Option.some.inj (ha.symm.trans hb)
    exact absurd (hd.apart g' hg' g hg a hbg hag) hne
  · exact hlen

theorem Tidy.two_of_none (h : Tidy ws) (hview : (currentView ws).group = none) :
    ∀ g ∈ ws.groups, 2 ≤ g.members.length := by
  intro g hg
  obtain ⟨a, ha, hag⟩ | hlen := h.offscreen g hg
  · exact absurd hag (current_eq_none.mp hview a ha g hg)
  · exact hlen

theorem tidy_showTab (hs : ∀ g ∈ ws.groups, g.Shaped) (t : τ) : Tidy (showTab ws (some t)) where
  shaped g hg := by
    have hg := List.mem_of_mem_filter hg
    cases hf : findGroup ws.groups (some t) with
    | none =>
      simp only [hf] at hg
      exact hs g hg
    | some h =>
      simp only [hf] at hg
      obtain ⟨hh, ht⟩ := mem_of_findGroup hf
      have ht := mem_members.mp ht
      refine shaped_replaceGroup hs ?_ g hg
      exact ⟨(hs h hh).split, (hs h hh).length, indexOf_nonneg ht, indexOf_lt (List.ne_nil_of_mem ht)⟩
  offscreen := offscreen_pruneOffscreen _ _

theorem Tidy.showTab (h : Tidy ws) (tab : Option τ) : Tidy (showTab ws tab) := by
  cases tab with
  | none => exact h
  | some t => exact tidy_showTab h.shaped t

theorem Tidy.put (h : Tidy ws) (hd : Distinct I ws.groups) (hview : (currentView ws).group = some g)
    (hid : next.id = g.id) (hnext : next.Shaped) (ht : t ∈ next.members) :
    Tidy ⟨replaceGroup (Layout.detachTab ws.groups t (some g.id)) next, some t⟩ where
  shaped := shaped_replaceGroup (shaped_detachTab h.shaped t _) hnext
  offscreen g' hg' := by
    obtain ⟨rfl, -⟩ | ⟨hg', hne⟩ := mem_replaceGroup.mp hg'
    · exact .inl ⟨t, rfl, ht⟩
    · obtain ⟨g₀, hg₀, hfrom⟩ := mem_detachTab.mp hg'
      have hid₀ := (detachFrom_narrower hfrom).1.id
      have hne₀ : g₀.id ≠ g.id := fun he ↦ hne (hid₀.trans (he.trans hid.symm))
      refine .inr ?_
      obtain ⟨-, rfl⟩ | ⟨-, hkeep, -⟩ | ⟨-, -, hc⟩ := detachFrom_eq_some hfrom
      · exact h.two_of_ne hd hview hg₀ hne₀
      · exact absurd (Option.some.inj hkeep) hne₀
      · obtain ⟨-, hm, hlen⟩ := compactGroup_eq_some hc
        rw [hm]
        exact hlen

theorem Tidy.replace (h : Tidy ws) (hd : Distinct I ws.groups)
    (hview : (currentView ws).group = some g) (hid : next.id = g.id) (hnext : next.Shaped)
    {active : Option τ} (hon : (∃ a, active = some a ∧ a ∈ next.members) ∨ 2 ≤ next.members.length) :
    Tidy ⟨replaceGroup ws.groups next, active⟩ where
  shaped := shaped_replaceGroup h.shaped hnext
  offscreen g' hg' := by
    obtain ⟨rfl, -⟩ | ⟨hold, hne⟩ := mem_replaceGroup.mp hg'
    · exact hon
    · exact .inr (h.two_of_ne hd hview hold (hid ▸ hne))

theorem Tidy.dissolve (h : Tidy ws) (hd : Distinct I ws.groups)
    (hview : (currentView ws).group = some g) (active : Option τ) :
    Tidy ⟨ws.groups.filter fun g' ↦ g'.id ≠ g.id, active⟩ where
  shaped g' hg' := h.shaped g' (List.mem_of_mem_filter hg')
  offscreen g' hg' := by
    obtain ⟨hold, hne⟩ := List.mem_filter.mp hg'
    exact .inr (h.two_of_ne hd hview hold (of_decide_eq_true hne))

/-! ## The reducers keep splits in shape -/

theorem Tidy.detachTab (h : Tidy ws) (t : τ)
    (hkeep : ∀ g ∈ ws.groups, some g.id = keep → t ∈ g.members →
      (∃ a, ws.activeTabId = some a ∧ a ≠ t ∧ a ∈ g.members) ∨
        2 ≤ (g.panes.without t).members.length) :
    Tidy { ws with groups := detachTab ws.groups t keep } where
  shaped := shaped_detachTab h.shaped t keep
  offscreen g' hg' := by
    obtain ⟨g, hg, hfrom⟩ := mem_detachTab.mp hg'
    obtain ⟨-, rfl⟩ | ⟨ht, hid, rfl⟩ | ⟨-, -, hc⟩ := detachFrom_eq_some hfrom
    · exact h.offscreen _ hg
    · obtain ⟨a, ha, hne, hag⟩ | hlen := hkeep g hg hid ht
      · refine .inl ⟨a, ha, ?_⟩
        have hne : some a ≠ some t := fun he ↦ hne (Option.some.inj he)
        exact mem_members.mpr (List.mem_map.mpr ⟨some a, mem_members.mp hag, if_neg hne⟩)
      · exact .inr hlen
    · obtain ⟨-, hm, hlen⟩ := compactGroup_eq_some hc
      rw [hm]
      exact .inr hlen

theorem Tidy.detach (h : Tidy ws) (t : τ) : Tidy { ws with groups := Layout.detachTab ws.groups t none } :=
  h.detachTab t fun _ _ hkeep ↦ nomatch hkeep

theorem Tidy.fillPane (h : Tidy ws) (hd : Distinct I ws.groups)
    (hview : (currentView ws).group = some g) (t : τ) {i : Nat} (hi : i < g.panes.cells.length) :
    Tidy (fillPane ws g t i) := by
  have hg := hd.mem_current hview
  unfold Layout.fillPane
  dsimp only
  split
  · exact tidy_showTab h.shaped t
  · have hlen : (if some t ∈ g.panes.cells then g.panes.cells.set (g.panes.cells.idxOf (some t))
        (g.panes.cells[i]?).join else g.panes.cells).length = g.panes.cells.length := by
      split
      · exact List.length_set
      · rfl
    refine h.put hd hview rfl ⟨(h.shaped g hg).split, ?_, ?_, ?_⟩ ?_
    · rw [List.length_set, hlen]
      exact (h.shaped g hg).length
    · exact Int.natCast_nonneg i
    · dsimp only
      rw [List.length_set, hlen]
      exact_mod_cast hi
    · refine mem_reduceOption_iff.mpr ⟨i, ?_⟩
      rw [List.getElem?_set_self (by rw [hlen]; exact hi)]

theorem Tidy.closePane (h : Tidy ws) (hd : Distinct I ws.groups)
    (hview : (currentView ws).group = some g) {i : Nat} (hi : i < g.panes.cells.length) :
    Tidy (closePane ws g i) := by
  obtain ⟨a, ha, hg, hag⟩ := hd.current_eq_some.mp hview
  have hs := h.shaped g hg
  have hemptied : Group.Shaped
      { g with panes := ⟨g.panes.cells.set i none, []⟩, focusedPane := i } := by
    refine ⟨hs.split, ?_, Int.natCast_nonneg i, ?_⟩
    · rw [List.length_set]
      exact hs.length
    · dsimp only
      rw [List.length_set]
      exact_mod_cast hi
  unfold Layout.closePane
  dsimp only
  split
  · rename_i compacted hc
    obtain ⟨-, hm, hlen⟩ := compactGroup_eq_some hc
    rw [← hm] at hlen
    cases hmembers : compacted.members with
    | nil =>
      rw [hmembers] at hlen
      cases hlen
    | cons x rest =>
      obtain ⟨y, hy⟩ : ∃ y, (compacted.panes.get compacted.focusedPane).or (x :: rest).head? =
          some y := by
        cases compacted.panes.get compacted.focusedPane with
        | none => exact ⟨x, rfl⟩
        | some y => exact ⟨y, rfl⟩
      rw [hy]
      exact tidy_showTab (shaped_replaceGroup h.shaped (hemptied.compact hc)) y
  · have hdissolved := h.dissolve hd hview none
    exact hdissolved.showTab _

theorem Tidy.placeInPane (h : Tidy ws) (hd : Distinct I ws.groups) (tab : Option τ) (i : Int) :
    Tidy (placeInPane ws tab i) := by
  unfold Layout.placeInPane
  cases hview : (currentView ws).group with
  | none => exact h.showTab tab
  | some g =>
    dsimp only
    split
    · exact h
    · rename_i hi
      have hi : i.toNat < g.panes.cells.length := by omega
      cases tab with
      | some t => exact h.fillPane hd hview t hi
      | none => exact h.closePane hd hview hi

theorem Tidy.selectTab (h : Tidy ws) (hd : Distinct I ws.groups) (t : τ) (fillEmptyPane : Bool) :
    Tidy (selectTab ws t fillEmptyPane) := by
  unfold Layout.selectTab
  split
  · split
    · exact h.placeInPane hd _ _
    · exact h.showTab _
  · exact h.showTab _

theorem Tidy.addTab (h : Tidy ws) (hd : Distinct I ws.groups) (t : τ) (focus : Bool) :
    Tidy (addTab ws t focus) := by
  unfold Layout.addTab
  split
  · split
    · split
      · exact h.placeInPane hd _ _
      · exact h.showTab _
    · exact h
  · rename_i hview
    split
    · exact h.showTab _
    · split
      · exact h
      · exact ⟨h.shaped, fun g hg ↦ .inr (h.two_of_none hview g hg)⟩

theorem Tidy.removeTab (h : Tidy ws) (t : τ) (remaining : List τ) :
    Tidy (removeTab ws t remaining) := by
  unfold Layout.removeTab
  dsimp only
  split
  · exact h.detach t
  · rename_i hactive
    have hactive : ws.activeTabId = some t := not_not.mp hactive
    have hgone : Tidy (⟨Layout.detachTab ws.groups t none, none⟩ : Workspace τ) := by
      refine ⟨shaped_detachTab h.shaped t none, fun g hg ↦ .inr ?_⟩
      obtain ⟨a, ha, hag⟩ | hlen := (h.detach t).offscreen g hg
      · obtain rfl := Option.some.inj (hactive.symm.trans ha)
        exact absurd hag (notMem_detachTab hg)
      · exact hlen
    exact hgone.showTab _

theorem shaped_reflow (g : Group τ) {mode : Mode} (hmode : mode ≠ .single) :
    (reflow g mode).Shaped := by
  have htwo := two_le_paneCount hmode
  refine ⟨hmode, ?_, le_max_left _ _, ?_⟩
  · simp [reflow]
  · have hlen : (reflow g mode).panes.cells.length = paneCount mode := by simp [reflow]
    rw [hlen]
    refine max_lt (by omega) ?_
    split
    · refine (indexOf_lt ?_).trans_le (by simp)
      intro hnil
      have hzero : paneCount mode = 0 := by simpa using hnil
      omega
    · omega

theorem reflow_offscreen {a : τ} (hplain : g.panes.stray = []) (ha : a ∈ g.members) {mode : Mode}
    (hmode : mode ≠ .single) :
    a ∈ (reflow g mode).members ∨ 2 ≤ (reflow g mode).members.length := by
  have htwo := two_le_paneCount hmode
  rw [members_reflow]
  by_cases hlen : 2 ≤ g.members.length
  · refine .inr ?_
    rw [List.length_take]
    unfold fitting
    split
    · split
      · rw [List.length_take]
        omega
      · rw [List.length_append, List.length_take, List.length_take, List.length_singleton]
        omega
    · rw [List.length_take]
      omega
  · -- the only tab fits
    obtain ⟨x, hx⟩ := List.length_eq_one_iff.mp
      (by have := List.length_pos_of_mem ha; omega : g.members.length = 1)
    have htake : g.members.take (paneCount mode) = [x] := by
      rw [hx, List.take_of_length_le (by simp; omega)]
    obtain rfl : a = x := List.mem_singleton.mp (hx ▸ ha)
    have hfit : fitting g (paneCount mode) = [a] := by
      unfold fitting
      rw [htake]
      split
      · rename_i t hget
        have ht := mem_of_get hplain hget
        have ht : t ∈ [a] := hx ▸ (mem_group_members.mpr ht)
        rw [if_pos ht]
      · rfl
    rw [hfit, List.take_of_length_le (by simp; omega)]
    exact .inl List.mem_cons_self

theorem Tidy.setLayoutMode (h : Tidy ws) (hd : Distinct I ws.groups) (mode : Option Mode)
    (newId : GroupId) : Tidy (setLayoutMode ws mode newId) := by
  unfold Layout.setLayoutMode
  split
  · exact h
  · rename_i mode
    split
    · exact h
    · rename_i hmode
      split
      · rename_i hview
        split
        · exact h
        · rename_i t hactive
          have hsingle : (currentView ws).mode = .single := by
            rw [current_group] at hview
            rw [currentView, hview]
          have htwo := two_le_paneCount fun he ↦ hmode (he.trans hsingle.symm)
          have hnext : Group.Shaped ⟨newId, nextWorkspaceName ws.groups, mode,
              ⟨some t :: List.replicate (paneCount mode - 1) none, []⟩, 1⟩ := by
            refine ⟨fun he ↦ hmode (he.trans hsingle.symm), ?_, Int.one_nonneg, ?_⟩
            · simp
              omega
            · simp
              omega
          have hadd := tidy_add (t := t) h.shaped (h.two_of_none hview) hnext
            (mem_members.mpr List.mem_cons_self)
          show Tidy ⟨_, ws.activeTabId⟩
          rw [hactive]
          exact hadd
      · rename_i g hview
        split
        · exact h.dissolve hd hview _
        · rename_i hsingle
          obtain ⟨a, ha, hg, hag⟩ := hd.current_eq_some.mp hview
          refine h.replace hd hview (by rfl) (shaped_reflow g hsingle) ?_
          exact (reflow_offscreen (hd.plain g hg) hag hsingle).imp_left fun hmem ↦ ⟨a, ha, hmem⟩

theorem Tidy.focusPane (h : Tidy ws) (hd : Distinct I ws.groups) {i : Int}
    (hi : ∀ g, (currentView ws).group = some g → 0 ≤ i ∧ i < g.panes.cells.length) :
    Tidy (focusPane ws i) := by
  unfold Layout.focusPane
  split
  · exact h
  · rename_i g hview
    split
    · exact h
    · obtain ⟨a, ha, hg, hag⟩ := hd.current_eq_some.mp hview
      have hnext : Group.Shaped { g with focusedPane := i } :=
        ⟨(h.shaped g hg).split, (h.shaped g hg).length, hi g hview⟩
      refine h.replace hd hview (by rfl) hnext ?_
      cases hget : g.panes.get i with
      | none => exact .inl ⟨a, ha, hag⟩
      | some x => exact .inl ⟨x, rfl, mem_of_get (hd.plain g hg) hget⟩

theorem shaped_promote (g : Group τ) (t : τ) {n : Nat} (hn : n < 2) (zone : Zone) :
    (promote g t n zone).Shaped ∧ t ∈ (promote g t n zone).members := by
  obtain ⟨a, b, c, first, hac, hbc, hab, he, hlt⟩ := promote_eq g t n zone
  obtain ⟨ha, hb, hc⟩ := hlt hn
  have hlen : ∀ u v w : Option τ, (threeOf a b c u v w).cells.length = 4 := by
    intro u v w
    have hfour : (⟨[none, none, none, none], []⟩ : Panes τ).cells.length = 4 := rfl
    have h₁ := (length_put (⟨[none, none, none, none], []⟩ : Panes τ) u ha).trans hfour
    have h₂ := (length_put _ v (hb.trans_eq h₁.symm)).trans h₁
    exact (length_put _ w (hc.trans_eq h₂.symm)).trans h₂
  rw [he]
  refine ⟨⟨Mode.noConfusion, hlen _ _ _, Int.natCast_nonneg _, ?_⟩, ?_⟩
  · rw [hlen]
    dsimp only
    split <;> omega
  · refine mem_reduceOption_iff.mpr ⟨if first then a else b, Option.join_eq_some_iff.mp ?_⟩
    rw [join_threeOf]
    cases first with
    | true => simp [hac, hab]
    | false => simp [hbc]

theorem Tidy.dropTab (h : Tidy ws) (hd : Distinct I ws.groups) (t : τ) (i : Int) (zone : Zone)
    (newId : GroupId)
    (hi : ∀ g, (currentView ws).group = some g → goesIntoPane g.mode zone = false →
      0 ≤ i ∧ i < g.panes.cells.length) :
    Tidy (dropTab ws t i zone newId) := by
  unfold Layout.dropTab
  split
  · rename_i hview
    split
    · exact h.showTab _
    · rename_i current hactive
      split
      · exact h.showTab _
      · have hshaped := shaped_detachTab (shaped_detachTab h.shaped t none) current none
        have htwo := two_detachTab (two_detachTab (h.two_of_none hview) t) current
        refine tidy_add hshaped htwo ⟨?_, ?_, ?_, ?_⟩ (mem_pair.mpr (.inl rfl))
        · dsimp only
          split <;> exact Mode.noConfusion
        · dsimp only
          split <;> split <;> rfl
        · refine indexOf_nonneg ?_
          split <;> simp
        · refine indexOf_lt ?_
          split <;> simp
  · rename_i g hview
    split
    · exact h.placeInPane hd _ _
    · rename_i hinto
      have hinto : goesIntoPane g.mode zone = false := by simpa using hinto
      obtain ⟨hpos, hlt⟩ := hi g hview hinto
      obtain ⟨n, rfl⟩ := Int.eq_ofNat_of_zero_le hpos
      have hshape := h.shaped g (hd.mem_current hview)
      have hn : n < 2 := by
        have hcount : paneCount g.mode = 2 := by
          cases hmode : g.mode with
          | single => exact absurd hmode hshape.split
          | splitRight | splitDown => rfl
          | grid => simp [goesIntoPane, hmode] at hinto
        rw [hshape.length, hcount] at hlt
        exact_mod_cast hlt
      obtain ⟨hnext, ht⟩ := shaped_promote g t hn zone
      have hid : (promote g t n zone).id = g.id := by
        obtain ⟨a, b, c, first, -, -, -, he, -⟩ := promote_eq g t n zone
        rw [he]
      exact h.put hd hview hid hnext ht

theorem Tidy.splitWith (h : Tidy ws) (hd : Distinct I ws.groups) (t : τ) (direction : Direction)
    (newId : GroupId) : Tidy (splitWith ws t direction newId) := by
  unfold Layout.splitWith
  dsimp only
  split
  · rename_i hview
    split
    · refine tidy_add (shaped_detachTab h.shaped t none) (two_detachTab (h.two_of_none hview) t)
        ⟨?_, ?_, Int.one_nonneg, by simp⟩ (mem_members.mpr List.mem_cons_self)
      · dsimp only
        split <;> exact Mode.noConfusion
      · dsimp only
        split <;> rfl
    · refine h.dropTab hd t 0 _ newId ?_
      intro g hg
      rw [hview] at hg
      cases hg
  · rename_i g hview
    have hfocus := (h.shaped g (hd.mem_current hview)).focus
    split
    · rename_i ht
      refine h.dropTab hd t _ _ newId ?_
      intro g' hg' _
      obtain rfl := Option.some.inj (hview.symm.trans hg')
      exact ⟨indexOf_nonneg ht, indexOf_lt (List.ne_nil_of_mem ht)⟩
    · refine h.dropTab hd t _ _ newId ?_
      intro g' hg' _
      obtain rfl := Option.some.inj (hview.symm.trans hg')
      exact hfocus

theorem Tidy.removeFromSplit (h : Tidy ws) (t : τ) : Tidy (removeFromSplit ws t) := by
  unfold Layout.removeFromSplit
  split
  · exact h.detach t
  · exact h

theorem Tidy.ungroup (h : Tidy ws) (hd : Distinct I ws.groups) (id : GroupId) :
    Tidy (ungroup ws id) := by
  unfold Layout.ungroup
  split
  · exact h
  · rename_i g hfind
    have hid : g.id = id := by simpa using List.find?_some hfind
    have hg := List.mem_of_find?_eq_some hfind
    split
    · rename_i hon
      obtain ⟨a, ha, hag⟩ := (Option.any_eq_true _ _).mp hon
      have hview : (currentView ws).group = some g :=
        hd.current_eq_some.mpr ⟨a, ha, hg, mem_members.mpr (of_decide_eq_true hag)⟩
      rw [← hid]
      exact h.dissolve hd hview _
    · exact ⟨fun g' hg' ↦ h.shaped g' (List.mem_of_mem_filter hg'),
        fun g' hg' ↦ h.offscreen g' (List.mem_of_mem_filter hg')⟩

theorem shaped_cleaned (alive seen : List τ) (groups : List (Group τ)) (hg : g.mode ≠ .single) :
    (cleaned alive seen groups g).Shaped := by
  have hlen : (cleaned alive seen groups g).panes.cells.length = paneCount g.mode := by
    simp [cleaned]
  refine ⟨hg, hlen, ?_⟩
  rw [hlen]
  have hpos := paneCount_pos g.mode
  simp only [cleaned, validFocus]
  split <;> omega

theorem tidy_sanitize (hd : Distinct I ws.groups) (tabIds : List τ) : Tidy (sanitize ws tabIds) := by
  obtain ⟨out, he, -, hout⟩ := sanitizeGroups_eq tabIds hd.ids [] []
  rw [List.nil_append] at he
  unfold sanitize
  dsimp only
  rw [he]
  refine ⟨fun g' hg' ↦ ?_, offscreen_pruneOffscreen _ _⟩
  obtain ⟨g, -, seen, done, hmode, hc, -⟩ := hout g' (List.mem_of_mem_filter hg')
  exact (shaped_cleaned tabIds seen done hmode).compact hc

/-! ## Runs -/

/-- An action fits the workspace: an index that is not checked is one of a pane, and a split
that is kept without a tab of it stays on the screen or has two others. -/
def Fits (ws : Workspace τ) : Action τ → Prop
  | .focusPane i => ∀ g ∈ (currentView ws).group, 0 ≤ i ∧ i < g.panes.cells.length
  | .dropTab _ i zone => ∀ g ∈ (currentView ws).group, goesIntoPane g.mode zone = false →
      0 ≤ i ∧ i < g.panes.cells.length
  | .detachTab t keep => ∀ g ∈ ws.groups, some g.id = keep → t ∈ g.members →
      (∃ a ∈ ws.activeTabId, a ≠ t ∧ a ∈ g.members) ∨ 2 ≤ (g.panes.without t).members.length
  | _ => True

instance (ws : Workspace τ) : (a : Action τ) → Decidable (Fits ws a)
  | .focusPane i =>
    inferInstanceAs (Decidable (∀ g ∈ (currentView ws).group, 0 ≤ i ∧ i < g.panes.cells.length))
  | .dropTab _ i zone =>
    inferInstanceAs (Decidable (∀ g ∈ (currentView ws).group, goesIntoPane g.mode zone = false →
      0 ≤ i ∧ i < g.panes.cells.length))
  | .detachTab t keep =>
    inferInstanceAs (Decidable (∀ g ∈ ws.groups, some g.id = keep → t ∈ g.members →
      (∃ a ∈ ws.activeTabId, a ≠ t ∧ a ∈ g.members) ∨ 2 ≤ (g.panes.without t).members.length))
  | .addTab .. | .removeTab .. | .selectTab .. | .placeInPane .. | .setLayoutMode _
  | .splitWith .. | .removeFromSplit _ | .ungroup _ | .sanitize _ => .isTrue trivial

structure Sound (ws : Workspace τ) : Prop where
  onePane : ∀ g ∈ ws.groups, ∀ h ∈ ws.groups, ∀ (m n : Nat) (t : τ),
    g.panes.cells[m]? = some (some t) → h.panes.cells[n]? = some (some t) → g = h ∧ m = n
  panes : ∀ g ∈ ws.groups, g.panes.cells.length = paneCount g.mode
  focus : ∀ g ∈ ws.groups, 0 ≤ g.focusedPane ∧ g.focusedPane < g.panes.cells.length
  ids : (ws.groups.map fun g ↦ g.id).Nodup
  offscreen : ∀ g ∈ ws.groups, (currentView ws).group ≠ some g → 2 ≤ g.members.length

theorem sound_of_tidy (hd : Distinct I ws.groups) (h : Tidy ws) : Sound ws where
  onePane g hg h hh m n t hm hn := by
    obtain rfl := hd.eq hg hh (mem_reduceOption_iff.mpr ⟨m, hm⟩) (mem_reduceOption_iff.mpr ⟨n, hn⟩)
    exact ⟨rfl, nodup_reduceOption_iff.mp (hd.once g hg) m n t hm hn⟩
  panes g hg := (h.shaped g hg).length
  focus g hg := (h.shaped g hg).focus
  ids := hd.ids
  offscreen g hg hne := by
    obtain ⟨a, ha, hag⟩ | hlen := h.offscreen g hg
    · exact absurd (hd.current_eq_some.mpr ⟨a, ha, hg, hag⟩) hne
    · exact hlen

theorem namesPanes_of_fits (h : Tidy ws) (hd : Distinct I ws.groups) {a : Action τ} (ha : Fits ws a) :
    NamesPanes ws a := by
  cases a with
  | dropTab t i zone => exact fun g hg hinto ↦ (ha g hg hinto).1
  | splitWith t direction => exact fun g hg _ _ ↦ (h.shaped g (hd.mem_current hg)).focus.1
  | _ => trivial

theorem Tidy.reduce (h : Tidy ws) (hd : Distinct I ws.groups) (newId : GroupId) {a : Action τ}
    (ha : Fits ws a) : Tidy (reduce ws newId a) := by
  cases a with
  | addTab t focus => exact h.addTab hd t focus
  | removeTab t remaining => exact h.removeTab t remaining
  | selectTab t fill => exact h.selectTab hd t fill
  | detachTab t keep => exact h.detachTab t ha
  | placeInPane tab i => exact h.placeInPane hd tab i
  | setLayoutMode mode => exact h.setLayoutMode hd mode newId
  | focusPane i => exact h.focusPane hd ha
  | dropTab t i zone => exact h.dropTab hd t i zone newId ha
  | splitWith t direction => exact h.splitWith hd t direction newId
  | removeFromSplit t => exact h.removeFromSplit t
  | ungroup id => exact h.ungroup hd id
  | sanitize tabIds => exact tidy_sanitize hd tabIds

theorem Session.Inv.step {s s' : Session τ} {e : Nat × Action τ} (h : s.Inv) (he : Fits s.ws e.2)
    (hs : step s e = some s') : s'.Inv := by
  have hd := h.distinct.step (namesPanes_of_fits h.tidy h.distinct he) hs
  obtain rfl := Option.some.inj hs
  exact ⟨hd, h.tidy.reduce h.distinct _ he⟩

/-- **Every workspace that is reached with actions that fit is sound.** -/
theorem run_sound {s : Session τ} {es : List (Nat × Action τ)}
    (hr : Run step (fun s e _ ↦ Fits s.ws e.2) ({} : Session τ) es s) : Sound s.ws := by
  have h : s.Inv := hr.invariant Session.inv_empty fun _ _ _ ht hs hok ↦ ht.step hok hs
  exact sound_of_tidy h.distinct h.tidy

/-! ## A pane that is not there -/

def threeTabs : List (Nat × Action Nat) :=
  [(1, .addTab 1 true), (2, .setLayoutMode (some .splitRight)), (3, .addTab 2 true),
    (4, .addTab 3 true), (5, .selectTab 1 false)]

/-- The third tab is dropped on one of the two, and the grid is made a split again. -/
theorem run_sound_threeTabs : ∃ s : Session Nat,
    Run step free {} (threeTabs ++ [(6, .dropTab 3 1 .bottom), (7, .setLayoutMode (some .splitDown))])
      s ∧ Sound s.ws := by
  have h : execIf step (fun s e ↦ decide (Fits s.ws e.2)) ({} : Session Nat)
      (threeTabs ++ [(6, .dropTab 3 1 .bottom), (7, .setLayoutMode (some .splitDown))]) =
      some _ := rfl
  have hrun := (run_of_execIf h).mono fun _ _ _ ↦ of_decide_eq_true
  exact ⟨_, hrun.forget, run_sound hrun⟩

/-- The third tab is dropped on a pane that was there before; a tab is lost, and the grid has
five panes. -/
theorem drop_on_missing_pane : ∃ s : Session Nat,
    Run step free {} (threeTabs ++ [(6, .dropTab 3 2 .top)]) s ∧
      s.ws.groups.map (fun g ↦ (g.mode, g.panes.cells)) =
        [(.grid, [some 1, none, some 3, none, none])] ∧ ¬ Sound s.ws := by
  have h : exec step ({} : Session Nat) (threeTabs ++ [(6, .dropTab 3 2 .top)]) = some _ := rfl
  refine ⟨_, run_of_exec h, rfl, fun hs ↦ ?_⟩
  have hcount := hs.panes _ (List.mem_singleton_self _)
  revert hcount
  decide

end Shellius.Layout
