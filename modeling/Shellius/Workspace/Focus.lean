import Shellius.Workspace.Apart

/-!
# The pane in focus and the active tab

Keys go to the pane in focus, and the active tab is the one that is highlighted.  If the
active tab is in a split, the pane in focus is empty or has it.

A pane in focus may be empty while the active tab is in another pane.  What becomes of it
when the panes of the split change is then not told by the active tab, and a few reducers
put another tab in its place.
-/

namespace Shellius.Layout

open Lib

variable {τ : Type*}

/-- The pane in focus is empty or has the tab. -/
def Group.Focuses (g : Group τ) (a : τ) : Prop :=
  g.panes.get g.focusedPane = none ∨ g.panes.get g.focusedPane = some a

/-- The split of the active tab, if it is in one, has it in focus or an empty pane. -/
def Focused (ws : Workspace τ) : Prop :=
  ∀ a, ws.activeTabId = some a → ∀ g ∈ ws.groups, a ∈ g.members → g.Focuses a

theorem focused_none (gs : List (Group τ)) : Focused ⟨gs, none⟩ := fun _ h ↦ nomatch h

variable {I : GroupId → Prop} {ws : Workspace τ} {gs : List (Group τ)} {g g' next : Group τ}
  {a t : τ} {keep : Option GroupId} {newId : GroupId} {zone : Zone}

theorem focused_add (hgone : ∀ g ∈ gs, a ∉ g.members) (hnext : next.Focuses a) :
    Focused ⟨gs ++ [next], some a⟩ := by
  rintro b hb g hg hbg
  obtain rfl := Option.some.inj hb
  obtain hg | hg := List.mem_append.mp hg
  · exact absurd hbg (hgone g hg)
  · rw [List.mem_singleton.mp hg]
    exact hnext

theorem focused_replace (hd : Distinct I ws.groups) (hg : g ∈ ws.groups) (hid : next.id = g.id)
    (hag : a ∈ g.members) (hnext : a ∈ next.members → next.Focuses a) :
    Focused ⟨replaceGroup ws.groups next, some a⟩ := by
  rintro b hb h hh hbh
  obtain rfl := Option.some.inj hb
  obtain ⟨rfl, -⟩ | ⟨hold, hne⟩ := mem_replaceGroup.mp hh
  · exact hnext hbh
  · exact absurd ((hd.apart h hold g hg a hbh hag).trans hid.symm) hne

theorem focused_dissolve (hd : Distinct I ws.groups) (hg : g ∈ ws.groups) (hag : a ∈ g.members) :
    Focused ⟨ws.groups.filter fun g' ↦ g'.id ≠ g.id, some a⟩ := by
  rintro b hb h hh hbh
  obtain rfl := Option.some.inj hb
  obtain ⟨hold, hne⟩ := List.mem_filter.mp hh
  exact absurd (hd.apart h hold g hg a hbh hag) (of_decide_eq_true hne)

variable [DecidableEq τ]

theorem focused_showTab (hd : Distinct I ws.groups) (t : τ) : Focused (showTab ws (some t)) := by
  rintro b hb g hg hbg
  obtain rfl := Option.some.inj hb
  have hg := List.mem_of_mem_filter hg
  cases hf : findGroup ws.groups (some t) with
  | none =>
    simp only [hf] at hg
    exact absurd hbg (findGroup_eq_none.mp hf g hg)
  | some h =>
    simp only [hf] at hg
    obtain ⟨hh, ht⟩ := mem_of_findGroup hf
    obtain ⟨rfl, -⟩ | ⟨hold, hne⟩ := mem_replaceGroup.mp hg
    · exact .inr (get_indexOf (mem_members.mp ht))
    · exact absurd (hd.apart g hold h hh t hbg ht) hne

theorem Focused.showTab (h : Focused ws) (hd : Distinct I ws.groups) (tab : Option τ) :
    Focused (showTab ws tab) := by
  cases tab with
  | none => exact h
  | some t => exact focused_showTab hd t

theorem focused_put (hnext : next.Focuses t) :
    Focused ⟨replaceGroup (detachTab gs t keep) next, some t⟩ := by
  rintro b hb h hh hbh
  obtain rfl := Option.some.inj hb
  obtain ⟨rfl, -⟩ | ⟨hold, -⟩ := mem_replaceGroup.mp hh
  · exact hnext
  · exact absurd hbh (notMem_detachTab hold)

/-! ## Splits that lose tabs -/

theorem Group.Focuses.compact (hf : g.Focuses a) (ha : a ∈ g.members)
    (hfirst : g.mode = .grid → g.members.length = 2 → g.panes.get g.focusedPane = none →
      g.members.head? = some a)
    (h : compactGroup g = some g') : g'.Focuses a := by
  unfold compactGroup at h
  dsimp only at h
  split at h
  · cases h
  · split at h
    · rename_i hgrid
      obtain rfl := Option.some.inj h
      refine .inr ?_
      obtain hnone | hsome := hf
      · have hhead := hfirst hgrid.1 hgrid.2 hnone
        have hidx : indexOf (g.members.map some) (none : Option τ) = -1 := by
          simp [indexOf]
        show Panes.get _ (max 0 (indexOf _ _)) = some a
        rw [hnone, hidx, show max 0 (-1 : Int) = (0 : Nat) from rfl, get_natCast]
        obtain ⟨rest, hrest⟩ := List.head?_eq_some_iff.mp hhead
        simp [hrest]
      · have hmem : some a ∈ g.members.map some := List.mem_map.mpr ⟨a, ha, rfl⟩
        show Panes.get _ (max 0 (indexOf _ _)) = some a
        rw [hsome, max_eq_right (indexOf_nonneg hmem)]
        exact get_indexOf (p := ⟨g.members.map some, []⟩) hmem
    · obtain rfl := Option.some.inj h
      exact hf

/-- Taking a tab out of the split on the screen leaves the active tab in focus: if the split
becomes one of two panes while an empty pane is in focus, the active tab is the first. -/
def FocusSurvives (ws : Workspace τ) (t : τ) (keep : Option GroupId) : Prop :=
  ∀ a ∈ ws.activeTabId, a ≠ t → ∀ g ∈ (currentView ws).group, t ∈ g.members → some g.id ≠ keep →
    g.mode = .grid → (g.panes.without t).members.length = 2 → g.panes.get g.focusedPane = none →
    (g.panes.without t).members.head? = some a

theorem get_without_of_ne (hplain : g.panes.stray = []) {i : Int} {x : τ} (hx : x ≠ t) :
    (g.panes.without t).get i = some x ↔ g.panes.get i = some x := by
  rw [get_eq_some hplain, get_eq_some (p := g.panes.without t) rfl]
  refine exists_congr fun n ↦ and_congr_right fun _ ↦ ?_
  constructor
  · exact thins_without g.panes t n x
  · intro hn
    have hne : some x ≠ some t := fun he ↦ hx (Option.some.inj he)
    simp [Panes.without, hn, hne]

theorem Focused.detachTab (h : Focused ws) (hd : Distinct I ws.groups)
    (hs : FocusSurvives ws t keep) :
    Focused { ws with groups := Layout.detachTab ws.groups t keep } := by
  rintro a ha g' hg' hag'
  have ha : ws.activeTabId = some a := ha
  obtain ⟨g, hg, hfrom⟩ := mem_detachTab.mp hg'
  have hag := (detachFrom_narrower hfrom).1.subset hag'
  have hat : a ≠ t := fun he ↦ notMem_detachTab hg' (he ▸ hag')
  have hfocus := h a ha g hg hag
  have hwithout : Group.Focuses { g with panes := g.panes.without t } a := by
    obtain hnone | hsome := hfocus
    · refine .inl (Option.eq_none_iff_forall_ne_some.mpr fun x hx ↦ ?_)
      have hxt : x ≠ t := by
        rintro rfl
        exact notMem_without g.panes x (mem_of_get rfl hx)
      rw [(get_without_of_ne (hd.plain g hg) hxt).mp hx] at hnone
      cases hnone
    · exact .inr ((get_without_of_ne (hd.plain g hg) hat).mpr hsome)
  obtain ⟨-, rfl⟩ | ⟨-, -, rfl⟩ | ⟨ht, hkeep, hc⟩ := detachFrom_eq_some hfrom
  · exact hfocus
  · exact hwithout
  · refine hwithout.compact ((compactGroup_eq_some hc).2.1 ▸ hag') ?_ hc
    intro hgrid hlen hnone
    have hview : (currentView ws).group = some g := hd.current_eq_some.mpr ⟨a, ha, hg, hag⟩
    refine hs a ha hat g hview ht hkeep hgrid hlen ?_
    obtain hempty | hsome := hfocus
    · exact hempty
    · have hstays := (get_without_of_ne (hd.plain g hg) hat).mpr hsome
      exact absurd (hnone.symm.trans hstays) (Option.some_ne_none a).symm

/-! ## The reducers keep the active tab in focus -/

theorem Focused.fillPane (hd : Distinct I ws.groups) (t : τ) {i : Nat}
    (hi : i < g.panes.cells.length) : Focused (fillPane ws g t i) := by
  unfold Layout.fillPane
  dsimp only
  split
  · exact focused_showTab hd t
  · refine focused_put (.inr ?_)
    dsimp only
    rw [get_natCast, List.getElem?_set_self, Option.join_some]
    split
    · rw [List.length_set]
      exact hi
    · exact hi

theorem Focused.closePane (hd : Distinct I ws.groups) (hg : g ∈ ws.groups) (i : Nat) :
    Focused (closePane ws g i) := by
  unfold Layout.closePane
  dsimp only
  split
  · rename_i compacted hc
    have hn := (narrower_emptied g i).trans (compactGroup_eq_some hc).1
    have hd' := hd.replace_narrower hg hn
    exact Focused.showTab (focused_none _) hd' _
  · have hd' := hd.narrow (narrows_filter (fun g' ↦ decide (g'.id ≠ g.id)) ws.groups)
    exact Focused.showTab (focused_none _) hd' _

theorem Focused.placeInPane (h : Focused ws) (hd : Distinct I ws.groups) (tab : Option τ) (i : Int) :
    Focused (placeInPane ws tab i) := by
  unfold Layout.placeInPane
  cases hview : (currentView ws).group with
  | none => exact h.showTab hd tab
  | some g =>
    dsimp only
    split
    · exact h
    · rename_i hi
      have hi : i.toNat < g.panes.cells.length := by omega
      cases tab with
      | some t => exact Focused.fillPane hd t hi
      | none => exact Focused.closePane hd (hd.mem_current hview) i.toNat

theorem Focused.selectTab (h : Focused ws) (hd : Distinct I ws.groups) (t : τ)
    (fillEmptyPane : Bool) : Focused (selectTab ws t fillEmptyPane) := by
  unfold Layout.selectTab
  split
  · split
    · exact h.placeInPane hd _ _
    · exact h.showTab hd _
  · exact h.showTab hd _

theorem Focused.addTab (h : Focused ws) (hd : Distinct I ws.groups) (t : τ) (focus : Bool)
    (hs : focus = false → ws.activeTabId = none → ∀ g ∈ ws.groups, t ∈ g.members → g.Focuses t) :
    Focused (addTab ws t focus) := by
  unfold Layout.addTab
  split
  · split
    · split
      · exact h.placeInPane hd _ _
      · exact h.showTab hd _
    · exact h
  · split
    · exact h.showTab hd _
    · rename_i hfocus
      split
      · exact h
      · rename_i hactive
        rintro b hb g hg hbg
        obtain rfl := Option.some.inj hb
        exact hs (by simpa using hfocus) (by simpa using hactive) g hg hbg

theorem Focused.removeTab (h : Focused ws) (hd : Distinct I ws.groups) (t : τ) (remaining : List τ)
    (hs : FocusSurvives ws t none) : Focused (removeTab ws t remaining) := by
  unfold Layout.removeTab
  dsimp only
  split
  · exact h.detachTab hd hs
  · have hd' := hd.detachTab t none
    exact Focused.showTab (focused_none _) hd' _

/-- A split in another mode keeps the active tab in focus: if an empty pane is in focus and
the tabs fill the new mode, the active tab is the last that fits. -/
def RefitsFocus (ws : Workspace τ) (mode : Option Mode) : Prop :=
  ∀ g ∈ (currentView ws).group, ∀ m ∈ mode, m ≠ .single → m ≠ g.mode →
    g.panes.get g.focusedPane = none → paneCount m ≤ g.members.length →
    ∀ a ∈ ws.activeTabId, a ∈ g.members.take (paneCount m) → g.members[paneCount m - 1]? = some a

theorem cells_reflow (g : Group τ) (m : Mode) : (reflow g m).panes.cells =
    (List.range (paneCount m)).map fun i ↦ (fitting g (paneCount m))[i]? := rfl

theorem focusedPane_reflow (g : Group τ) (m : Mode) : (reflow g m).focusedPane =
    max 0 (if (g.panes.get g.focusedPane).isSome then
        indexOf (reflow g m).panes.cells (g.panes.get g.focusedPane)
      else (min g.members.length (paneCount m - 1) : Nat)) := rfl

theorem reflow_focuses (hf : g.Focuses a) {m : Mode} (ha : a ∈ (reflow g m).members)
    (hlast : g.panes.get g.focusedPane = none → paneCount m ≤ g.members.length →
      a ∈ g.members.take (paneCount m) → g.members[paneCount m - 1]? = some a) :
    (reflow g m).Focuses a := by
  have hpos : 0 < paneCount m := by cases m <;> decide
  obtain hnone | hsome := hf
  · have hfit : fitting g (paneCount m) = g.members.take (paneCount m) := by
      rw [fitting, hnone]
    rw [members_reflow, hfit] at ha
    -- the first empty pane is in focus, or the last
    have hget : (reflow g m).panes.get (reflow g m).focusedPane =
        g.members[min g.members.length (paneCount m - 1)]? := by
      rw [focusedPane_reflow, hnone, if_neg (by simp), max_eq_right (Int.natCast_nonneg _),
        get_natCast, cells_reflow, List.getElem?_map, List.getElem?_range (by omega),
        Option.map_some, Option.join_some, hfit, List.getElem?_take_of_lt (by omega)]
    rw [Group.Focuses, hget]
    by_cases hlen : paneCount m ≤ g.members.length
    · rw [min_eq_right (by omega)]
      exact .inr (hlast hnone hlen (List.mem_of_mem_take ha))
    · rw [min_eq_left (by omega)]
      exact .inl (List.getElem?_eq_none le_rfl)
  · have hcells := mem_members.mp ha
    refine .inr ?_
    rw [focusedPane_reflow, hsome, if_pos (by rfl), max_eq_right (indexOf_nonneg hcells)]
    exact get_indexOf hcells

theorem Focused.setLayoutMode (h : Focused ws) (hd : Distinct I ws.groups) (mode : Option Mode)
    (newId : GroupId) (hs : RefitsFocus ws mode) : Focused (setLayoutMode ws mode newId) := by
  unfold Layout.setLayoutMode
  split
  · exact h
  · rename_i mode
    split
    · exact h
    · rename_i hmode
      split
      · rename_i hview
        split
        · exact h
        · rename_i t hactive
          show Focused ⟨_, ws.activeTabId⟩
          rw [hactive]
          refine focused_add (current_eq_none.mp hview t hactive) (.inl ?_)
          show Panes.get _ ((1 : Nat) : Int) = none
          rw [get_natCast]
          cases paneCount mode - 1 <;> rfl
      · rename_i g hview
        obtain ⟨a, ha, hg, hag⟩ := hd.current_eq_some.mp hview
        split
        · obtain ⟨b, hb, hbg⟩ : ∃ b, (g.panes.get g.focusedPane).or
              (g.members.head?.or ws.activeTabId) = some b ∧ b ∈ g.members := by
            cases hget : g.panes.get g.focusedPane with
            | some b => exact ⟨b, rfl, mem_of_get (hd.plain g hg) hget⟩
            | none =>
              cases hmembers : g.members with
              | nil => exact absurd (hmembers ▸ hag) List.not_mem_nil
              | cons b rest => exact ⟨b, rfl, List.mem_cons_self⟩
          rw [hb]
          exact focused_dissolve hd hg hbg
        · rename_i hsingle
          have hne : mode ≠ g.mode := by
            rw [currentView_of_some hview] at hmode
            exact hmode
          show Focused ⟨_, ws.activeTabId⟩
          rw [ha]
          refine focused_replace hd hg (by rfl) hag fun hmem ↦ ?_
          exact reflow_focuses (h a ha g hg hag) hmem fun hnone hlen hfits ↦
            hs g hview mode rfl hsingle hne hnone hlen a ha hfits

theorem Focused.focusPane (h : Focused ws) (hd : Distinct I ws.groups) (i : Int) :
    Focused (focusPane ws i) := by
  unfold Layout.focusPane
  split
  · exact h
  · rename_i g hview
    obtain ⟨a, ha, hg, hag⟩ := hd.current_eq_some.mp hview
    split
    · exact h
    · cases hget : g.panes.get i with
      | some x =>
        exact focused_replace hd hg (by rfl) (mem_of_get (hd.plain g hg) hget) fun _ ↦ .inr hget
      | none =>
        rw [Option.none_or, ha]
        exact focused_replace hd hg (by rfl) hag fun _ ↦ .inl hget

theorem promote_focuses (g : Group τ) (t : τ) (n : Nat) (zone : Zone) :
    (promote g t n zone).Focuses t := by
  obtain ⟨a, b, c, first, hac, hbc, hab, he, -⟩ := promote_eq g t n zone
  refine .inr ?_
  rw [he]
  dsimp only
  rw [get_natCast, join_threeOf]
  cases first with
  | true => simp [hac, hab]
  | false => simp [hbc]

theorem Focused.dropTab (h : Focused ws) (hd : Distinct I ws.groups) (t : τ) (i : Int) (zone : Zone)
    (newId : GroupId) (hi : DropsOnPane ws i zone) : Focused (dropTab ws t i zone newId) := by
  unfold Layout.dropTab
  split
  · split
    · exact h.showTab hd _
    · split
      · exact h.showTab hd _
      · refine focused_add (fun g hg ↦ (notMem_detach_detach hg).1) (.inr (get_indexOf ?_))
        dsimp only
        split <;> simp
  · rename_i g hview
    split
    · exact h.placeInPane hd _ _
    · rename_i hinto
      obtain ⟨n, rfl⟩ := Int.eq_ofNat_of_zero_le (hi g hview (by simpa using hinto))
      exact focused_put (promote_focuses g t n zone)

theorem Focused.splitWith (h : Focused ws) (hd : Distinct I ws.groups) (t : τ)
    (direction : Direction) (newId : GroupId) (hi : SplitsPane ws t direction) :
    Focused (splitWith ws t direction newId) := by
  unfold Layout.splitWith
  dsimp only
  split
  · rename_i hview
    split
    · exact focused_add (fun g hg ↦ notMem_detachTab hg) (.inl rfl)
    · refine h.dropTab hd _ _ _ newId ?_
      intro g hg
      rw [hview] at hg
      cases hg
  · rename_i g hview
    split
    · rename_i ht
      exact h.dropTab hd _ _ _ newId fun _ _ _ ↦ indexOf_nonneg ht
    · rename_i ht
      refine h.dropTab hd _ _ _ newId ?_
      intro g' hg' hinto
      obtain rfl := Option.some.inj (hview.symm.trans hg')
      exact hi g hview ht hinto

theorem Focused.removeFromSplit (h : Focused ws) (hd : Distinct I ws.groups) (t : τ)
    (hs : FocusSurvives ws t none) : Focused (removeFromSplit ws t) := by
  unfold Layout.removeFromSplit
  split
  · exact h.detachTab hd hs
  · exact h

theorem Focused.ungroup (h : Focused ws) (hd : Distinct I ws.groups) (id : GroupId) :
    Focused (ungroup ws id) := by
  unfold Layout.ungroup
  split
  · exact h
  · rename_i g hfind
    have hid : g.id = id := by simpa using List.find?_some hfind
    have hg := List.mem_of_find?_eq_some hfind
    split
    · rename_i hon
      obtain ⟨a, ha, hag⟩ := (Option.any_eq_true _ _).mp hon
      have hag : a ∈ g.members := mem_members.mpr (of_decide_eq_true hag)
      obtain ⟨b, hb, hbg⟩ : ∃ b, (g.panes.get g.focusedPane).or ws.activeTabId = some b ∧
          b ∈ g.members := by
        cases hget : g.panes.get g.focusedPane with
        | some b => exact ⟨b, rfl, mem_of_get (hd.plain g hg) hget⟩
        | none => exact ⟨a, ha, hag⟩
      rw [hb, ← hid]
      exact focused_dissolve hd hg hbg
    · exact fun a ha g' hg' hag' ↦ h a ha g' (List.mem_of_mem_filter hg') hag'

/-! ### Restoring a workspace -/

def restoredTab (ws : Workspace τ) (tabIds : List τ) : Option τ :=
  if ws.activeTabId.any (· ∈ tabIds) then ws.activeTabId else tabIds.getLast?

def keptTabs (tabIds : List τ) (g : Group τ) : List τ :=
  (g.panes.cells.take (paneCount g.mode)).reduceOption.filter (· ∈ tabIds)

/-- A group with the tab is restored with the tab in focus: no other tab that is alive is in
the pane in focus, and if the pane becomes empty in a grid of two tabs, the tab is the first. -/
def Group.RestoresTo (g : Group τ) (tabIds : List τ) (a : τ) : Prop :=
  (∀ x ∈ g.panes.get (validFocus g.mode g.focusedPane), x ∈ tabIds → x = a) ∧
    (g.mode = .grid → (keptTabs tabIds g).length = 2 →
      (∀ x ∈ g.panes.get (validFocus g.mode g.focusedPane), x ∉ tabIds) →
      (keptTabs tabIds g).head? = some a)

def RestoresFocus (ws : Workspace τ) (tabIds : List τ) : Prop :=
  ∀ a ∈ restoredTab ws tabIds, ∀ g ∈ ws.groups, g.mode ≠ .single → a ∈ keptTabs tabIds g →
    g.RestoresTo tabIds a

section

variable {tabIds seen : List τ} {done : List (Group τ)}

theorem members_cleaned (hseen : ∀ x ∈ seen, x ∉ g.members) :
    (cleaned tabIds seen done g).members = keptTabs tabIds g := by
  refine (reduceOption_range_filter _ _ _).trans (List.filter_congr fun x hx ↦ ?_)
  have hmem : x ∈ g.members := by
    obtain ⟨n, hn⟩ := mem_reduceOption_iff.mp hx
    rw [List.getElem?_take] at hn
    split at hn
    · exact mem_reduceOption_iff.mpr ⟨n, hn⟩
    · cases hn
  have hnot : x ∉ seen := fun h ↦ hseen x h hmem
  simp [hnot]

theorem get_cleaned : (cleaned tabIds seen done g).panes.get (cleaned tabIds seen done g).focusedPane =
    (g.panes.get (validFocus g.mode g.focusedPane)).filter fun x ↦ x ∈ tabIds ∧ x ∉ seen := by
  have hvalid : 0 ≤ validFocus g.mode g.focusedPane ∧
      validFocus g.mode g.focusedPane < paneCount g.mode := by
    have hpos : 0 < paneCount g.mode := by cases g.mode <;> decide
    unfold validFocus
    split <;> omega
  obtain ⟨n, hn⟩ := Int.eq_ofNat_of_zero_le hvalid.1
  show Panes.get _ (validFocus g.mode g.focusedPane) = _
  rw [hn, get_natCast, get_natCast]
  have hlt : n < paneCount g.mode := by omega
  show (((List.range (paneCount g.mode)).map _)[n]?).join = _
  rw [List.getElem?_map, List.getElem?_range hlt, Option.map_some, Option.join_some]

end

theorem focused_sanitize (hd : Distinct I ws.groups) {tabIds : List τ}
    (hs : RestoresFocus ws tabIds) : Focused (sanitize ws tabIds) := by
  obtain ⟨out, he, hn, hout⟩ := sanitizeGroups_eq tabIds hd.ids [] []
  rw [List.nil_append] at he
  rintro a ha g' hg' hag'
  have hg' : g' ∈ out := he ▸ List.mem_of_mem_filter hg'
  obtain ⟨g, hg, seen, done, hmode, hc, hseen⟩ := hout g' hg'
  have hapart : ∀ x ∈ seen, x ∉ g.members := by
    intro x hx hxg
    obtain hnil | ⟨h, hh, hne, hxh⟩ := hseen x hx
    · exact List.not_mem_nil hnil
    · exact hne (hd.apart h hh g hg x hxh hxg)
  have hmembers : (cleaned tabIds seen done g).members = keptTabs tabIds g := members_cleaned hapart
  rw [(compactGroup_eq_some hc).2.1] at hag'
  obtain ⟨honly, hfirst⟩ := hs a ha g hg hmode (hmembers ▸ hag')
  refine Group.Focuses.compact ?_ hag' ?_ hc
  · rw [Group.Focuses, get_cleaned]
    cases hget : (g.panes.get (validFocus g.mode g.focusedPane)).filter
        fun x ↦ x ∈ tabIds ∧ x ∉ seen with
    | none => exact .inl rfl
    | some x =>
      obtain ⟨hx, hp⟩ := Option.filter_eq_some_iff.mp hget
      rw [honly x hx (of_decide_eq_true hp).1]
      exact .inr rfl
  · intro hgrid hlen hnone
    rw [hmembers] at hlen ⊢
    refine hfirst hgrid hlen fun x hx halive ↦ ?_
    have hxg : x ∈ g.members := mem_of_get (hd.plain g hg) hx
    have hnot : x ∉ seen := fun h ↦ hapart x h hxg
    rw [get_cleaned] at hnone
    have hsome : (g.panes.get (validFocus g.mode g.focusedPane)).filter
        (fun x ↦ x ∈ tabIds ∧ x ∉ seen) = some x :=
      Option.filter_eq_some_iff.mpr ⟨hx, decide_eq_true ⟨halive, hnot⟩⟩
    rw [hnone] at hsome
    cases hsome

/-! ## Runs -/

def KeepsFocus (ws : Workspace τ) : Action τ → Prop
  | .addTab t focus => focus = false → ws.activeTabId = none →
      ∀ g ∈ ws.groups, t ∈ g.members → g.Focuses t
  | .removeTab t _ | .removeFromSplit t => FocusSurvives ws t none
  | .detachTab t keep => FocusSurvives ws t keep
  | .setLayoutMode mode => RefitsFocus ws mode
  | .dropTab _ i zone => DropsOnPane ws i zone
  | .splitWith t direction => SplitsPane ws t direction
  | .sanitize tabIds => RestoresFocus ws tabIds
  | .selectTab .. | .placeInPane .. | .focusPane _ | .ungroup _ => True

theorem namesPanes_of_keepsFocus {e : Action τ} (he : KeepsFocus ws e) : NamesPanes ws e := by
  cases e with
  | dropTab t i zone => exact he
  | splitWith t direction => exact he
  | _ => trivial

theorem Focused.reduce (h : Focused ws) (hd : Distinct I ws.groups) (newId : GroupId) {e : Action τ}
    (he : KeepsFocus ws e) : Focused (reduce ws newId e) := by
  cases e with
  | addTab t focus => exact h.addTab hd t focus he
  | removeTab t remaining => exact h.removeTab hd t remaining he
  | selectTab t fill => exact h.selectTab hd t fill
  | detachTab t keep => exact h.detachTab hd he
  | placeInPane tab i => exact h.placeInPane hd tab i
  | setLayoutMode mode => exact h.setLayoutMode hd mode newId he
  | focusPane i => exact h.focusPane hd i
  | dropTab t i zone => exact h.dropTab hd t i zone newId he
  | splitWith t direction => exact h.splitWith hd t direction newId he
  | removeFromSplit t => exact h.removeFromSplit hd t he
  | ungroup id => exact h.ungroup hd id
  | sanitize tabIds => exact focused_sanitize hd he

/-- If the active tab is in a group, that group is on the screen, and its pane in focus is
empty or has the tab. -/
def FocusShown (ws : Workspace τ) : Prop :=
  ∀ a ∈ ws.activeTabId, ∀ g ∈ ws.groups, some a ∈ g.panes.cells →
    (currentView ws).group = some g ∧
      (g.panes.get g.focusedPane = none ∨ g.panes.get g.focusedPane = some a)

/-- **In every workspace that is reached with actions that keep the focus, the pane in focus
shows the active tab or nothing.** -/
theorem run_focusShown {s : Session τ} {es : List (Nat × Action τ)}
    (hr : Run step (fun s e _ ↦ KeepsFocus s.ws e.2) ({} : Session τ) es s) : FocusShown s.ws := by
  have h : s.Distinct ∧ Focused s.ws := by
    refine hr.invariant (I := fun s ↦ s.Distinct ∧ Focused s.ws) ⟨distinct_nil, focused_none []⟩ ?_
    rintro s e s' ⟨hd, hf⟩ hstep he
    have hd' := hd.step (namesPanes_of_keepsFocus he) hstep
    obtain rfl := Option.some.inj hstep
    exact ⟨hd', hf.reduce hd _ he⟩
  intro a ha g hg hag
  have hag := mem_members.mpr hag
  exact ⟨h.1.current_eq_some.mpr ⟨a, ha, hg, hag⟩, h.2 a ha g hg hag⟩

instance (g : Group τ) (a : τ) : Decidable (g.Focuses a) := inferInstanceAs (Decidable (_ ∨ _))

instance (g : Group τ) (tabIds : List τ) (a : τ) : Decidable (g.RestoresTo tabIds a) :=
  inferInstanceAs (Decidable (_ ∧ _))

instance (ws : Workspace τ) (t : τ) (keep : Option GroupId) :
    Decidable (FocusSurvives ws t keep) :=
  inferInstanceAs (Decidable (∀ a ∈ ws.activeTabId, a ≠ t → ∀ g ∈ (currentView ws).group,
    t ∈ g.members → some g.id ≠ keep → g.mode = .grid → (g.panes.without t).members.length = 2 →
    g.panes.get g.focusedPane = none → (g.panes.without t).members.head? = some a))

instance (ws : Workspace τ) : (e : Action τ) → Decidable (KeepsFocus ws e)
  | .addTab t focus => inferInstanceAs (Decidable (focus = false → ws.activeTabId = none →
      ∀ g ∈ ws.groups, t ∈ g.members → g.Focuses t))
  | .removeTab t _ | .removeFromSplit t => inferInstanceAs (Decidable (FocusSurvives ws t none))
  | .detachTab t keep => inferInstanceAs (Decidable (FocusSurvives ws t keep))
  | .setLayoutMode mode => inferInstanceAs (Decidable (∀ g ∈ (currentView ws).group, ∀ m ∈ mode,
      m ≠ .single → m ≠ g.mode → g.panes.get g.focusedPane = none →
      paneCount m ≤ g.members.length → ∀ a ∈ ws.activeTabId,
      a ∈ g.members.take (paneCount m) → g.members[paneCount m - 1]? = some a))
  | .dropTab _ i zone => inferInstanceAs (Decidable (∀ g ∈ (currentView ws).group,
      goesIntoPane g.mode zone = false → 0 ≤ i))
  | .splitWith t direction => inferInstanceAs (Decidable (∀ g ∈ (currentView ws).group,
      some t ∉ g.panes.cells →
      goesIntoPane g.mode (if direction = .right then .right else .bottom) = false →
      0 ≤ g.focusedPane))
  | .sanitize tabIds => inferInstanceAs (Decidable (∀ a ∈ restoredTab ws tabIds, ∀ g ∈ ws.groups,
      g.mode ≠ .single → a ∈ keptTabs tabIds g → g.RestoresTo tabIds a))
  | .selectTab .. | .placeInPane .. | .focusPane _ | .ungroup _ => inferInstanceAs (Decidable True)

/-! ## A tab that is closed in a grid -/

def focusOnEmpty : List (Nat × Action Nat) :=
  [(1, .addTab 1 true), (2, .setLayoutMode (some .grid)), (3, .addTab 2 true), (4, .focusPane 2),
    (5, .addTab 3 true), (6, .focusPane 3)]

theorem run_focusShown_fourth : ∃ s : Session Nat,
    Run step free {} (focusOnEmpty ++ [(7, .addTab 4 true), (8, .removeTab 4 [1, 2, 3])]) s ∧
      FocusShown s.ws := by
  have h : execIf step (fun s e ↦ decide (KeepsFocus s.ws e.2)) ({} : Session Nat)
      (focusOnEmpty ++ [(7, .addTab 4 true), (8, .removeTab 4 [1, 2, 3])]) = some _ := rfl
  have hrun := (run_of_execIf h).mono fun _ _ _ ↦ of_decide_eq_true
  exact ⟨_, hrun.forget, run_focusShown hrun⟩

/-- The first tab is closed: the grid becomes a split of two, the second tab is in focus and
the third is the active one. -/
theorem close_with_empty_focus : ∃ s : Session Nat,
    Run step free {} (focusOnEmpty ++ [(7, .removeTab 1 [2, 3])]) s ∧
      s.ws.activeTabId = some 3 ∧
      s.ws.groups.map (fun g ↦ (g.mode, g.panes.cells, g.focusedPane)) =
        [(.splitRight, [some 2, some 3], 0)] ∧ ¬ FocusShown s.ws := by
  have h : exec step ({} : Session Nat) (focusOnEmpty ++ [(7, .removeTab 1 [2, 3])]) = some _ := rfl
  refine ⟨_, run_of_exec h, rfl, rfl, fun hs ↦ ?_⟩
  have hfocus := (hs 3 rfl _ (List.mem_singleton_self _) (by decide)).2
  revert hfocus
  decide

end Shellius.Layout
