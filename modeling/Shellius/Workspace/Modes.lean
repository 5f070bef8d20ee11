import Shellius.Workspace.Focus
import Shellius.Workspace.Invariant

/-!
# What stays on the screen when the layout changes

`setLayoutMode` changes the split on the screen into one of another kind, or takes it apart.  It
goes by the pane in focus, and if that is empty by the order of the tabs; it does not go by the
active tab.  So the active tab stays in view just when it is the one that is chosen
(`run_setLayoutMode_iff`), and a tab that is on the screen before is lost only where there is no
pane for it.
-/

namespace Shellius.Layout

open Lib

variable {τ : Type*} [DecidableEq τ] {I : GroupId → Prop} {ws : Workspace τ} {g : Group τ} {a : τ}
  {m : Mode} {newId : GroupId}

/-- What is on the screen after a change of the layout: a view in the new mode that has the active
tab, has no tab that was not there before, and has as many of them as there are panes. -/
structure ShowsStill (m : Mode) (a : τ) (ws ws' : Workspace τ) : Prop where
  mode : (currentView ws').mode = m
  active : ws'.activeTabId = some a
  placed : a ∈ (currentView ws').panes.members
  shown : (currentView ws').panes.members ⊆ (currentView ws).panes.members
  lost : min (currentView ws).panes.members.length (paneCount m) ≤
    (currentView ws').panes.members.length

/-- The active tab stays in view when the split on the screen is put into another mode: it is in
focus, or it is among the first tabs for which there are panes, one of which is for the tab in focus
if there is one. -/
def StaysInView (ws : Workspace τ) (m : Mode) (a : τ) : Prop :=
  ∀ g ∈ (currentView ws).group, m ≠ g.mode →
    match g.panes.get g.focusedPane with
    | some x =>
      x = a ∨ a ∈ g.members.take
        (if x ∈ g.members.take (paneCount m) then paneCount m else paneCount m - 1)
    | none => a ∈ g.members.take (paneCount m)

/-! ## Views -/

theorem currentView_alone {gs : List (Group τ)} (h : ∀ g ∈ gs, a ∉ g.members) :
    currentView ⟨gs, some a⟩ = ⟨none, .single, ⟨[some a], []⟩, 0⟩ := by
  have hnone : findGroup gs (some a) = none := findGroup_eq_none.mpr h
  unfold currentView
  rw [hnone]

theorem currentView_shared {gs : List (Group τ)} (hd : Distinct I gs) (hg : g ∈ gs)
    (ha : a ∈ g.members) : currentView ⟨gs, some a⟩ = ⟨some g, g.mode, g.panes, g.focusedPane⟩ :=
  currentView_of_some (hd.current_eq_some.mpr ⟨a, rfl, hg, ha⟩)

/-! ## Splits in another mode -/

theorem mem_fitting {count : Nat} :
    a ∈ fitting g count ↔ match g.panes.get g.focusedPane with
      | some x => x = a ∨ a ∈ g.members.take
          (if x ∈ g.members.take count then count else count - 1)
      | none => a ∈ g.members.take count := by
  unfold fitting
  cases hget : g.panes.get g.focusedPane with
  | none => exact Iff.rfl
  | some x =>
    dsimp only
    split
    · rename_i hx
      refine ⟨.inr, ?_⟩
      rintro (rfl | h)
      · exact hx
      · exact h
    · have htake : (g.members.take count).take (count - 1) = g.members.take (count - 1) := by
        rw [List.take_take, Nat.min_eq_left (Nat.sub_le count 1)]
      rw [htake, List.mem_append, List.mem_singleton, or_comm, eq_comm]

theorem length_fitting (hplain : g.panes.stray = []) {count : Nat} (hcount : 0 < count) :
    (fitting g count).length = min g.members.length count := by
  unfold fitting
  cases hget : g.panes.get g.focusedPane with
  | none =>
    dsimp only
    rw [List.length_take, Nat.min_comm]
  | some x =>
    dsimp only
    split
    · rw [List.length_take, Nat.min_comm]
    · rename_i hx
      have hmem : x ∈ g.members := mem_of_get hplain hget
      have hlen : count < g.members.length := by
        by_contra hle
        rw [List.take_of_length_le (not_lt.mp hle)] at hx
        exact hx hmem
      rw [List.length_append, List.length_take, List.length_take, List.length_singleton]
      omega

theorem members_reflow_fitting (hplain : g.panes.stray = []) (m : Mode) :
    (reflow g m).members = fitting g (paneCount m) := by
  rw [members_reflow]
  refine List.take_of_length_le ?_
  rw [length_fitting hplain (paneCount_pos m)]
  exact Nat.min_le_right _ _

/-- A split on the screen is put into another mode. -/
theorem showsStill_reflow_iff (hd : Distinct I ws.groups) (ha : ws.activeTabId = some a)
    (hview : (currentView ws).group = some g) (hm : m ≠ .single) :
    ShowsStill m a ws { ws with groups := replaceGroup ws.groups (reflow g m) } ↔
      a ∈ fitting g (paneCount m) := by
  have hg : g ∈ ws.groups := hd.mem_current hview
  have hplain := hd.plain g hg
  have hmembers : (reflow g m).members = fitting g (paneCount m) := members_reflow_fitting hplain m
  have hd' : Distinct I (replaceGroup ws.groups (reflow g m)) :=
    hd.replace_narrower hg (narrower_reflow hplain m)
  have hin : reflow g m ∈ replaceGroup ws.groups (reflow g m) :=
    mem_replaceGroup.mpr (.inl ⟨rfl, g, hg, rfl⟩)
  have hold : currentView ws = ⟨some g, g.mode, g.panes, g.focusedPane⟩ := currentView_of_some hview
  constructor
  · intro h
    by_contra hout
    have halone : ∀ h ∈ replaceGroup ws.groups (reflow g m), a ∉ h.members := by
      intro h hh hah
      rcases mem_replaceGroup.mp hh with ⟨he, -⟩ | ⟨hh, hid⟩
      · rw [he, hmembers] at hah
        exact hout hah
      · obtain ⟨b, hb, -, hbg⟩ := hd.current_eq_some.mp hview
        obtain rfl := Option.some.inj (ha.symm.trans hb)
        rw [hd.eq hh hg hah hbg] at hid
        exact hid rfl
    have hmode := h.mode
    rw [ha, currentView_alone halone] at hmode
    exact hm hmode.symm
  · intro hfits
    have hnew : currentView { ws with groups := replaceGroup ws.groups (reflow g m) } =
        ⟨some (reflow g m), m, (reflow g m).panes, (reflow g m).focusedPane⟩ := by
      rw [ha]
      exact currentView_shared hd' hin (hmembers ▸ hfits)
    constructor
    · rw [hnew]
    · exact ha
    · rw [hnew]
      show a ∈ (reflow g m).members
      rw [hmembers]
      exact hfits
    · rw [hnew, hold]
      exact (narrower_reflow hplain m).subset
    · rw [hnew, hold]
      show min g.members.length (paneCount m) ≤ (reflow g m).members.length
      rw [hmembers, length_fitting hplain (paneCount_pos m)]

theorem showsStill_dissolve_iff (hd : Distinct I ws.groups)
    (hview : (currentView ws).group = some g) (hag : a ∈ g.members) (keep : Option τ) :
    ShowsStill .single a ws ⟨ws.groups.filter fun h ↦ h.id ≠ g.id, keep⟩ ↔ keep = some a := by
  have hg : g ∈ ws.groups := hd.mem_current hview
  refine ⟨fun h ↦ h.active, ?_⟩
  rintro rfl
  have halone : ∀ h ∈ ws.groups.filter fun h ↦ h.id ≠ g.id, a ∉ h.members := by
    intro h hh hah
    obtain ⟨hmem, hid⟩ := List.mem_filter.mp hh
    exact of_decide_eq_true hid (congrArg Group.id (hd.eq hmem hg hah hag))
  have hnew := currentView_alone halone
  have hold : currentView ws = ⟨some g, g.mode, g.panes, g.focusedPane⟩ := currentView_of_some hview
  constructor
  · rw [hnew]
  · rfl
  · rw [hnew]
    exact List.mem_singleton.mpr rfl
  · rw [hnew, hold]
    intro x hx
    obtain rfl := List.mem_singleton.mp hx
    exact hag
  · rw [hnew]
    exact Nat.min_le_right _ _

/-! ## The change of the layout -/

theorem showsStill_split {gs : List (Group τ)} {name : String} (halone : ∀ g ∈ gs, a ∉ g.members)
    (hd : Distinct I (gs ++
      [⟨newId, name, m, ⟨some a :: List.replicate (paneCount m - 1) none, []⟩, 1⟩])) :
    ShowsStill m a ⟨gs, some a⟩ ⟨gs ++
      [⟨newId, name, m, ⟨some a :: List.replicate (paneCount m - 1) none, []⟩, 1⟩], some a⟩ := by
  have hmembers := members_alone a (paneCount m - 1)
  have hin : a ∈ (⟨some a :: List.replicate (paneCount m - 1) none, []⟩ : Panes τ).members := by
    rw [hmembers]
    exact List.mem_singleton_self a
  have hnew := currentView_shared hd (List.mem_append_right _ (List.mem_singleton_self _)) hin
  have hold := currentView_alone halone
  constructor
  · rw [hnew]
  · rfl
  · rw [hnew]
    exact hin
  · rw [hnew, hold, hmembers]
    exact List.Subset.refl _
  · rw [hnew, hold, hmembers]
    exact Nat.min_le_left _ _

theorem kept_iff (hplain : g.panes.stray = []) (hag : a ∈ g.members) (active : Option τ) :
    (g.panes.get g.focusedPane).or (g.members.head?.or active) = some a ↔
      a ∈ fitting g (paneCount .single) := by
  rw [mem_fitting]
  obtain ⟨b, rest, hrest⟩ := List.exists_cons_of_ne_nil (List.ne_nil_of_mem hag)
  have hone : ∀ c, c ∈ g.members.take (paneCount .single) ↔ c = b := by
    intro c
    rw [hrest]
    exact List.mem_singleton
  cases hget : g.panes.get g.focusedPane with
  | none =>
    dsimp only
    rw [hone, hrest]
    exact ⟨fun h ↦ (Option.some.inj h).symm, fun h ↦ congrArg some h.symm⟩
  | some x =>
    dsimp only
    constructor
    · intro h
      exact .inl (Option.some.inj h)
    · rintro (rfl | h)
      · rfl
      · split at h
        · rename_i hx
          rw [(hone x).mp hx, (hone a).mp h]
          rfl
        · exact absurd h List.not_mem_nil

theorem showsStill_setLayoutMode_iff (hd : Distinct I ws.groups) (ha : ws.activeTabId = some a)
    (hknown : I newId) (hnew : ∀ g ∈ ws.groups, g.id ≠ newId) :
    ShowsStill m a ws (setLayoutMode ws (some m) newId) ↔ StaysInView ws m a := by
  obtain ⟨gs, active⟩ := ws
  obtain rfl : active = some a := ha
  have hd' : Distinct I (setLayoutMode ⟨gs, some a⟩ (some m) newId).groups :=
    hd.setLayoutMode (some m) hknown hnew
  unfold Layout.setLayoutMode at hd' ⊢
  unfold StaysInView
  dsimp only at hd' ⊢
  cases hview : (currentView ⟨gs, some a⟩).group with
  | none =>
    have halone := current_eq_none.mp hview a rfl
    have hold := currentView_alone halone
    refine iff_of_true ?_ fun g hg ↦ by cases hg
    rw [hview] at hd'
    split
    · rename_i hm
      refine ⟨hm.symm, rfl, ?_, List.Subset.refl _, Nat.min_le_left _ _⟩
      rw [hold]
      exact List.mem_singleton_self a
    · rename_i hm
      rw [if_neg hm] at hd'
      exact showsStill_split halone hd'
  | some g =>
    obtain ⟨b, hb, hg, hag⟩ := hd.current_eq_some.mp hview
    obtain rfl := Option.some.inj hb
    have hold := currentView_of_some hview
    have hplain := hd.plain g hg
    rw [hold]
    dsimp only
    by_cases hm : m = g.mode
    · rw [if_pos hm]
      refine iff_of_true ⟨?_, rfl, ?_, List.Subset.refl _, Nat.min_le_left _ _⟩ ?_
      · rw [hold]
        exact hm.symm
      · rw [hold]
        exact hag
      · rintro g' ⟨⟩ hne
        exact absurd hm hne
    · rw [if_neg hm]
      suffices hfits : ShowsStill m a ⟨gs, some a⟩ _ ↔ a ∈ fitting g (paneCount m) by
        rw [hfits, mem_fitting]
        constructor
        · rintro h g' ⟨⟩ -
          exact h
        · exact fun h ↦ h g rfl hm
      by_cases hsingle : m = .single
      · subst hsingle
        rw [if_pos rfl]
        exact (showsStill_dissolve_iff hd hview hag _).trans (kept_iff hplain hag _)
      · rw [if_neg hsingle]
        exact showsStill_reflow_iff hd rfl hview hsingle

/-! ## Runs -/

theorem run_distinct {s : Session τ} {es : List (Nat × Action τ)}
    (hr : Run step (fun s e _ ↦ NamesPanes s.ws e.2) ({} : Session τ) es s) : s.Distinct :=
  hr.invariant (I := fun s ↦ s.Distinct) distinct_nil fun _ _ _ hd hstep he ↦ hd.step he hstep

/-- **In every workspace that is reached, a change of the layout keeps the active tab on the screen,
and with it as many tabs as there are panes, just when the active tab is one of those that the
change goes by.** -/
theorem run_setLayoutMode_iff {s : Session τ} {es : List (Nat × Action τ)}
    (hr : Run step (fun s e _ ↦ NamesPanes s.ws e.2) ({} : Session τ) es s)
    (ha : s.ws.activeTabId = some a) (m : Mode) (time : Nat) :
    ShowsStill m a s.ws (reduce s.ws ⟨time, s.seq + 1⟩ (.setLayoutMode (some m))) ↔
      StaysInView s.ws m a := by
  have hd : Distinct (fun id ↦ id.seq ≤ s.seq + 1) s.ws.groups :=
    (run_distinct hr).mono fun _ _ h ↦ Nat.le_succ_of_le h
  refine showsStill_setLayoutMode_iff hd ha (Nat.le_refl _) fun g hg hid ↦ ?_
  have hle := (run_distinct hr).known g hg
  rw [hid] at hle
  exact Nat.not_succ_le_self _ hle

/-! ## An empty pane in focus -/

/-- The grid of `focusOnEmpty` with its last tab in focus becomes a split of two. -/
theorem run_setLayoutMode_third : ∃ s : Session Nat,
    Run step free {} (focusOnEmpty ++ [(7, .focusPane 2)]) s ∧
      ShowsStill .splitRight 3 s.ws
        (reduce s.ws ⟨8, s.seq + 1⟩ (.setLayoutMode (some .splitRight))) := by
  have h : execIf step (fun s e ↦ decide (KeepsFocus s.ws e.2)) ({} : Session Nat)
      (focusOnEmpty ++ [(7, .focusPane 2)]) = some _ := rfl
  have hrun := (run_of_execIf h).mono fun _ _ _ hk ↦
    namesPanes_of_keepsFocus (of_decide_eq_true hk)
  refine ⟨_, hrun.forget, (run_setLayoutMode_iff hrun rfl .splitRight 8).mpr ?_⟩
  rintro g ⟨⟩ -
  exact .inl rfl

/-- With the empty pane in focus the first two tabs are kept, and the active one is shown on its
own. -/
theorem setLayoutMode_with_empty_focus : ∃ s : Session Nat,
    Run step free {} focusOnEmpty s ∧ s.ws.activeTabId = some 3 ∧
      ¬ ShowsStill .splitRight 3 s.ws
        (reduce s.ws ⟨7, s.seq + 1⟩ (.setLayoutMode (some .splitRight))) := by
  have h : exec step ({} : Session Nat) focusOnEmpty = some _ := rfl
  refine ⟨_, run_of_exec h, rfl, fun hs ↦ ?_⟩
  have hmode := hs.mode
  revert hmode
  decide

end Shellius.Layout
