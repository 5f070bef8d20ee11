import Shellius.Workspace.Modes

/-!
# The tab bar

`barItems` lists the open tabs: a split with two open tabs and more is one item, at the place of its
first tab, and every other tab is an item of its own.  Every open tab is listed once, and the tabs of
a split stand together in the bar wherever they stand in the order of the tabs.

`moveBlock` moves some tabs in the order of the tabs, which it permutes.  There the tabs of a split
need not stand together: a tab can be moved between two of them, and the bar does not show it.
-/

namespace Shellius.Layout

open Lib

/-! ## Items -/

inductive BarItem (α τ : Type*) where
  | tab (t : α)
  | workspace (group : Group τ) (tabs : List α)

/-- The tabs that an item stands for. -/
def BarItem.shown {α τ : Type*} : BarItem α τ → List α
  | .tab t => [t]
  | .workspace _ tabs => tabs

section

variable {α τ : Type*} [DecidableEq τ] (id : α → τ)

def openTabs (tabs : List α) (g : Group τ) : List α :=
  g.members.filterMap fun member ↦ tabs.find? fun t ↦ id t = member

/-- The group that a tab is shown in: the last one with it that has two open tabs. -/
def groupOf (tabs : List α) (groups : List (Group τ)) (t : α) : Option (Group τ) :=
  groups.reverse.find? fun g ↦ 2 ≤ (openTabs id tabs g).length ∧ id t ∈ (openTabs id tabs g).map id

/-- The loop of `barItems`, with the groups that have been listed. -/
def barFrom (tabs : List α) (groups : List (Group τ)) :
    List GroupId → List α → List (BarItem α τ)
  | _, [] => []
  | emitted, t :: rest =>
    match groupOf id tabs groups t with
    | none => .tab t :: barFrom tabs groups emitted rest
    | some g =>
      if g.id ∈ emitted then barFrom tabs groups emitted rest
      else .workspace g (openTabs id tabs g) :: barFrom tabs groups (g.id :: emitted) rest

def barItems (tabs : List α) (groups : List (Group τ)) : List (BarItem α τ) :=
  barFrom id tabs groups [] tabs

def shownInBar (tabs : List α) (groups : List (Group τ)) : List α :=
  (barItems id tabs groups).flatMap BarItem.shown

def unmoved (tabs : List α) (ids : List τ) : List α := tabs.filter fun t ↦ id t ∉ ids

/-- The number of other tabs before the block. -/
def insertAt (tabs : List α) (ids : List τ) (toTabIndex : Int) : Nat :=
  (max 0 (min ((unmoved id tabs ids).length : Int) toTabIndex)).toNat

def moveBlock (tabs : List α) (ids : List τ) (toTabIndex : Int) : List α :=
  (unmoved id tabs ids).take (insertAt id tabs ids toTabIndex) ++
    tabs.filter (fun t ↦ id t ∈ ids) ++ (unmoved id tabs ids).drop (insertAt id tabs ids toTabIndex)

end

section

variable {α τ : Type*} [DecidableEq τ] {id : α → τ} {I : GroupId → Prop} {tabs ts : List α}
  {groups : List (Group τ)} {g h : Group τ} {t x : α} {emitted : List GroupId}

/-! ## Groups in the bar -/

theorem mem_openTabs (hnodup : (tabs.map id).Nodup) :
    t ∈ openTabs id tabs g ↔ t ∈ tabs ∧ id t ∈ g.members := by
  have hinj : ∀ u ∈ tabs, ∀ v ∈ tabs, id u = id v → u = v :=
    fun _ hu _ hv he ↦ List.inj_on_of_nodup_map hnodup hu hv he
  rw [openTabs, List.mem_filterMap]
  constructor
  · rintro ⟨member, hmember, hfind⟩
    have hid := List.find?_some hfind
    have ht := List.mem_of_find?_eq_some hfind
    rw [of_decide_eq_true hid]
    exact ⟨ht, hmember⟩
  · rintro ⟨ht, hmember⟩
    refine ⟨id t, hmember, ?_⟩
    cases hfind : tabs.find? fun u ↦ id u = id t with
    | none => exact absurd (decide_eq_true rfl) (List.find?_eq_none.mp hfind t ht)
    | some u =>
      have hid := List.find?_some hfind
      exact congrArg some
        (hinj u (List.mem_of_find?_eq_some hfind) t ht (of_decide_eq_true hid))

theorem sublist_openTabs (id : α → τ) (tabs : List α) (g : Group τ) :
    ((openTabs id tabs g).map id).Sublist g.members := by
  unfold openTabs
  induction g.members with
  | nil => exact List.Sublist.refl _
  | cons member members ih =>
    rw [List.filterMap_cons]
    cases hfind : tabs.find? fun t ↦ id t = member with
    | none => exact ih.cons _
    | some u =>
      have hid := List.find?_some hfind
      dsimp only
      rw [List.map_cons, of_decide_eq_true hid]
      exact ih.cons_cons _

theorem nodup_openTabs (hd : Distinct I groups) (hg : g ∈ groups) : (openTabs id tabs g).Nodup :=
  ((hd.once g hg).sublist (sublist_openTabs id tabs g)).of_map id

theorem groupOf_eq_some (hd : Distinct I groups) (hnodup : (tabs.map id).Nodup) (ht : t ∈ tabs) :
    groupOf id tabs groups t = some g ↔
      g ∈ groups ∧ 2 ≤ (openTabs id tabs g).length ∧ t ∈ openTabs id tabs g := by
  have hmem : ∀ h : Group τ, id t ∈ (openTabs id tabs h).map id ↔ t ∈ openTabs id tabs h := by
    intro h
    refine ⟨fun hid ↦ ?_, fun hin ↦ List.mem_map_of_mem hin⟩
    obtain ⟨u, hu, hut⟩ := List.mem_map.mp hid
    rw [mem_openTabs hnodup] at hu ⊢
    exact ⟨ht, hut ▸ hu.2⟩
  constructor
  · intro hfind
    unfold groupOf at hfind
    have hq := List.find?_some hfind
    obtain ⟨hlen, hid⟩ := of_decide_eq_true hq
    exact ⟨List.mem_reverse.mp (List.mem_of_find?_eq_some hfind), hlen, (hmem g).mp hid⟩
  · rintro ⟨hg, hlen, hin⟩
    unfold groupOf
    cases hfind : groups.reverse.find? fun g ↦ 2 ≤ (openTabs id tabs g).length ∧
        id t ∈ (openTabs id tabs g).map id with
    | none =>
      have hno := List.find?_eq_none.mp hfind g (List.mem_reverse.mpr hg)
      exact absurd (decide_eq_true ⟨hlen, (hmem g).mpr hin⟩) hno
    | some h =>
      have hq := List.find?_some hfind
      obtain ⟨-, hid⟩ := of_decide_eq_true hq
      have hh : h ∈ groups := List.mem_reverse.mp (List.mem_of_find?_eq_some hfind)
      have hmember := ((mem_openTabs hnodup).mp ((hmem h).mp hid)).2
      exact congrArg some (hd.eq hh hg hmember ((mem_openTabs hnodup).mp hin).2)

/-! ## The loop -/

/-- What the bar shows of some of the tabs: those that are in no group, and all tabs of the groups
that have not been listed. -/
theorem mem_shown_barFrom (hd : Distinct I groups) (hnodup : (tabs.map id).Nodup)
    (hts : ts ⊆ tabs) :
    x ∈ (barFrom id tabs groups emitted ts).flatMap BarItem.shown ↔
      (x ∈ ts ∧ groupOf id tabs groups x = none) ∨
      ∃ g, g.id ∉ emitted ∧ x ∈ openTabs id tabs g ∧
        ∃ t ∈ ts, groupOf id tabs groups t = some g := by
  induction ts generalizing emitted with
  | nil => simp [barFrom]
  | cons t ts ih =>
    obtain ⟨ht, hts⟩ := List.cons_subset.mp hts
    unfold barFrom
    cases hgroup : groupOf id tabs groups t with
    | none =>
      dsimp only
      rw [List.flatMap_cons, List.mem_append, ih hts]
      constructor
      · rintro (hx | ⟨hx, hnone⟩ | ⟨g, hg, hx, u, hu, hug⟩)
        · obtain rfl := List.mem_singleton.mp hx
          exact .inl ⟨List.mem_cons_self, hgroup⟩
        · exact .inl ⟨List.mem_cons_of_mem t hx, hnone⟩
        · exact .inr ⟨g, hg, hx, u, List.mem_cons_of_mem t hu, hug⟩
      · rintro (⟨hx, hnone⟩ | ⟨g, hg, hx, u, hu, hug⟩)
        · rcases List.mem_cons.mp hx with rfl | hx
          · exact .inl (List.mem_singleton_self x)
          · exact .inr (.inl ⟨hx, hnone⟩)
        · rcases List.mem_cons.mp hu with rfl | hu
          · rw [hgroup] at hug
            cases hug
          · exact .inr (.inr ⟨g, hg, hx, u, hu, hug⟩)
    | some g =>
      dsimp only
      split
      · rename_i hemitted
        rw [ih hts]
        constructor
        · rintro (⟨hx, hnone⟩ | ⟨h, hh, hx, u, hu, huh⟩)
          · exact .inl ⟨List.mem_cons_of_mem t hx, hnone⟩
          · exact .inr ⟨h, hh, hx, u, List.mem_cons_of_mem t hu, huh⟩
        · rintro (⟨hx, hnone⟩ | ⟨h, hh, hx, u, hu, huh⟩)
          · rcases List.mem_cons.mp hx with rfl | hx
            · rw [hgroup] at hnone
              cases hnone
            · exact .inl ⟨hx, hnone⟩
          · rcases List.mem_cons.mp hu with rfl | hu
            · obtain rfl := Option.some.inj (hgroup.symm.trans huh)
              exact absurd hemitted hh
            · exact .inr ⟨h, hh, hx, u, hu, huh⟩
      · rename_i hemitted
        rw [List.flatMap_cons, List.mem_append, ih hts]
        constructor
        · rintro (hx | ⟨hx, hnone⟩ | ⟨h, hh, hx, u, hu, huh⟩)
          · exact .inr ⟨g, hemitted, hx, t, List.mem_cons_self, hgroup⟩
          · exact .inl ⟨List.mem_cons_of_mem t hx, hnone⟩
          · exact .inr ⟨h, fun hin ↦ hh (List.mem_cons_of_mem _ hin), hx, u,
              List.mem_cons_of_mem t hu, huh⟩
        · rintro (⟨hx, hnone⟩ | ⟨h, hh, hx, u, hu, huh⟩)
          · rcases List.mem_cons.mp hx with rfl | hx
            · rw [hgroup] at hnone
              cases hnone
            · exact .inr (.inl ⟨hx, hnone⟩)
          · by_cases hid : h.id = g.id
            · -- it is the group that is listed here
              have hin : u ∈ tabs := by
                rcases List.mem_cons.mp hu with rfl | hu
                · exact ht
                · exact hts hu
              have hgmem := ((groupOf_eq_some hd hnodup ht).mp hgroup).1
              have hhmem := ((groupOf_eq_some hd hnodup hin).mp huh).1
              rw [hd.eq_of_id hhmem hgmem hid] at hx
              exact .inl hx
            · rcases List.mem_cons.mp hu with rfl | hu
              · obtain rfl := Option.some.inj (hgroup.symm.trans huh)
                exact absurd rfl hid
              · refine .inr (.inr ⟨h, ?_, hx, u, hu, huh⟩)
                intro hin
                rcases List.mem_cons.mp hin with he | hin
                · exact hid he
                · exact hh hin

theorem nodup_shown_barFrom (hd : Distinct I groups) (hnodup : (tabs.map id).Nodup)
    (hts : ts ⊆ tabs) (hts' : ts.Nodup) :
    ((barFrom id tabs groups emitted ts).flatMap BarItem.shown).Nodup := by
  induction ts generalizing emitted with
  | nil => exact List.nodup_nil
  | cons t ts ih =>
    obtain ⟨ht, hrest⟩ := List.cons_subset.mp hts
    obtain ⟨hfresh, hrest'⟩ := List.nodup_cons.mp hts'
    unfold barFrom
    cases hgroup : groupOf id tabs groups t with
    | none =>
      dsimp only
      rw [List.flatMap_cons]
      refine List.nodup_append.mpr ⟨List.nodup_singleton t, ih hrest hrest', ?_⟩
      rintro x hx y hy rfl
      obtain rfl := List.mem_singleton.mp hx
      rcases (mem_shown_barFrom hd hnodup hrest).mp hy with ⟨hin, -⟩ | ⟨g, -, hin, u, hu, hug⟩
      · exact hfresh hin
      · obtain ⟨hg, hlen, -⟩ := (groupOf_eq_some hd hnodup (hrest hu)).mp hug
        rw [(groupOf_eq_some hd hnodup ht).mpr ⟨hg, hlen, hin⟩] at hgroup
        cases hgroup
    | some g =>
      obtain ⟨hg, hlen, -⟩ := (groupOf_eq_some hd hnodup ht).mp hgroup
      dsimp only
      split
      · exact ih hrest hrest'
      · rw [List.flatMap_cons]
        refine List.nodup_append.mpr ⟨nodup_openTabs hd hg, ih hrest hrest', ?_⟩
        rintro x hx y hy rfl
        have hin := ((mem_openTabs hnodup).mp hx).1
        have hgx := (groupOf_eq_some hd hnodup hin).mpr ⟨hg, hlen, hx⟩
        rcases (mem_shown_barFrom hd hnodup hrest).mp hy with
          ⟨-, hnone⟩ | ⟨h, hnew, hxh, u, hu, huh⟩
        · rw [hgx] at hnone
          cases hnone
        · obtain ⟨hh, hlenh, -⟩ := (groupOf_eq_some hd hnodup (hrest hu)).mp huh
          have hhx := (groupOf_eq_some hd hnodup hin).mpr ⟨hh, hlenh, hxh⟩
          obtain rfl := Option.some.inj (hgx.symm.trans hhx)
          exact hnew List.mem_cons_self

theorem mem_barFrom (hd : Distinct I groups) (hnodup : (tabs.map id).Nodup) (hts : ts ⊆ tabs)
    (ht : t ∈ ts) (hgroup : groupOf id tabs groups t = some g) (hnew : g.id ∉ emitted) :
    .workspace g (openTabs id tabs g) ∈ barFrom id tabs groups emitted ts := by
  induction ts generalizing emitted with
  | nil => exact absurd ht List.not_mem_nil
  | cons u ts ih =>
    obtain ⟨hu, hts⟩ := List.cons_subset.mp hts
    have hg := ((groupOf_eq_some hd hnodup (List.cons_subset.mpr ⟨hu, hts⟩ ht)).mp hgroup).1
    unfold barFrom
    cases hother : groupOf id tabs groups u with
    | none =>
      rcases List.mem_cons.mp ht with rfl | ht
      · rw [hgroup] at hother
        cases hother
      · exact List.mem_cons_of_mem _ (ih hts ht hnew)
    | some h =>
      have hh := ((groupOf_eq_some hd hnodup hu).mp hother).1
      dsimp only
      by_cases hid : h.id = g.id
      · obtain rfl := hd.eq_of_id hh hg hid
        rw [if_neg hnew]
        exact List.mem_cons_self
      · have ht : t ∈ ts := by
          rcases List.mem_cons.mp ht with rfl | ht
          · obtain rfl := Option.some.inj (hgroup.symm.trans hother)
            exact absurd rfl hid
          · exact ht
        split
        · exact ih hts ht hnew
        · refine List.mem_cons_of_mem _ (ih hts ht fun hin ↦ ?_)
          rcases List.mem_cons.mp hin with he | hin
          · exact hid he.symm
          · exact hnew hin

/-! ## The bar -/

theorem shownInBar_perm (hd : Distinct I groups) (hnodup : (tabs.map id).Nodup) :
    (shownInBar id tabs groups).Perm tabs := by
  have hshown : (shownInBar id tabs groups).Nodup :=
    nodup_shown_barFrom hd hnodup (List.Subset.refl tabs) (hnodup.of_map id)
  refine (List.perm_ext_iff_of_nodup hshown (hnodup.of_map id)).mpr fun x ↦ ?_
  refine (mem_shown_barFrom hd hnodup (List.Subset.refl tabs)).trans ?_
  constructor
  · rintro (⟨hx, -⟩ | ⟨g, -, hx, -⟩)
    · exact hx
    · exact ((mem_openTabs hnodup).mp hx).1
  · intro hx
    cases hgroup : groupOf id tabs groups x with
    | none => exact .inl ⟨hx, rfl⟩
    | some g =>
      obtain ⟨-, -, hin⟩ := (groupOf_eq_some hd hnodup hx).mp hgroup
      exact .inr ⟨g, List.not_mem_nil, hin, x, hx, hgroup⟩

theorem infix_flatMap {β γ : Type*} {f : β → List γ} {b : β} {l : List β} (h : b ∈ l) :
    f b <:+: l.flatMap f := by
  obtain ⟨front, back, rfl⟩ := List.append_of_mem h
  rw [List.flatMap_append, List.flatMap_cons]
  exact ⟨front.flatMap f, back.flatMap f, List.append_assoc _ _ _⟩

theorem openTabs_infix (hd : Distinct I groups) (hnodup : (tabs.map id).Nodup) (hg : g ∈ groups) :
    openTabs id tabs g <:+: shownInBar id tabs groups := by
  match hopen : openTabs id tabs g with
  | [] => exact List.nil_infix
  | [x] =>
    have hx : x ∈ tabs := ((mem_openTabs hnodup).mp (hopen ▸ List.mem_singleton_self x)).1
    obtain ⟨front, back, he⟩ := List.append_of_mem ((shownInBar_perm hd hnodup).mem_iff.mpr hx)
    rw [he]
    exact ⟨front, back, by simp⟩
  | x :: y :: rest =>
    have hin : x ∈ openTabs id tabs g := hopen ▸ List.mem_cons_self
    have hx : x ∈ tabs := ((mem_openTabs hnodup).mp hin).1
    have hlen : 2 ≤ (openTabs id tabs g).length := by
      rw [hopen]
      exact Nat.le_add_left _ _
    have hgroup := (groupOf_eq_some hd hnodup hx).mpr ⟨hg, hlen, hin⟩
    rw [← hopen]
    exact infix_flatMap (f := BarItem.shown) (mem_barFrom hd hnodup (List.Subset.refl tabs) hx hgroup List.not_mem_nil)

/-! ## Moving tabs -/

section

variable {ids : List τ} {i : Int}

theorem moveBlock_perm : (moveBlock id tabs ids i).Perm tabs := by
  unfold moveBlock
  refine (List.perm_append_right_iff _ |>.mpr List.perm_append_comm).trans ?_
  rw [List.append_assoc, List.take_append_drop]
  have h := List.filter_append_perm (fun t ↦ decide (id t ∈ ids)) tabs
  unfold unmoved
  simpa only [decide_not] using h

def Together (p : α → Bool) (l : List α) : Prop := l.filter p <:+: l

theorem filter_unmoved {p : α → Bool} (hp : ∀ t, p t = true → id t ∉ ids) (l : List α) :
    (unmoved id l ids).filter p = l.filter p := by
  unfold unmoved
  rw [List.filter_filter]
  refine List.filter_congr fun t _ ↦ ?_
  cases h : p t with
  | false => rfl
  | true => simp [hp t h]

theorem together_of_moved {p : α → Bool} (hp : ∀ t, p t = true → id t ∈ ids)
    (h : Together p tabs) : Together p (moveBlock id tabs ids i) := by
  have hrest : ∀ l : List α, l ⊆ unmoved id tabs ids → l.filter p = [] := by
    intro l hl
    refine List.filter_eq_nil_iff.mpr fun t ht hpt ↦ ?_
    exact of_decide_eq_true (List.mem_filter.mp (hl ht)).2 (hp t hpt)
  have hfilter : (tabs.filter fun t ↦ decide (id t ∈ ids)).filter p = tabs.filter p := by
    rw [List.filter_filter]
    refine List.filter_congr fun t _ ↦ ?_
    cases hpt : p t with
    | false => rfl
    | true => simp [hp t hpt]
  have hblock : tabs.filter p <:+: tabs.filter fun t ↦ decide (id t ∈ ids) := by
    obtain ⟨front, back, he⟩ := h
    refine ⟨front.filter fun t ↦ decide (id t ∈ ids), back.filter fun t ↦ decide (id t ∈ ids), ?_⟩
    have hall : (tabs.filter p).filter (fun t ↦ decide (id t ∈ ids)) = tabs.filter p :=
      List.filter_eq_self.mpr fun t ht ↦ decide_eq_true (hp t (List.mem_filter.mp ht).2)
    conv_rhs => rw [← he, List.filter_append, List.filter_append, hall]
  unfold Together moveBlock
  rw [List.filter_append, List.filter_append, hrest _ (List.take_subset _ _),
    hrest _ (List.drop_subset _ _), hfilter, List.nil_append, List.append_nil]
  exact hblock.trans ⟨_, _, rfl⟩

theorem together_of_unmoved {p : α → Bool} (hp : ∀ t, p t = true → id t ∉ ids)
    {front back : List α} (h : tabs = front ++ tabs.filter p ++ back)
    (hi : insertAt id tabs ids i ≤ (unmoved id front ids).length ∨
      (unmoved id front ids).length + (tabs.filter p).length ≤ insertAt id tabs ids i) :
    Together p (moveBlock id tabs ids i) := by
  have hall : unmoved id (tabs.filter p) ids = tabs.filter p :=
    List.filter_eq_self.mpr fun t ht ↦ decide_eq_true (hp t (List.mem_filter.mp ht).2)
  have hrest : unmoved id tabs ids = unmoved id front ids ++ tabs.filter p ++ unmoved id back ids := by
    conv_lhs => rw [h]
    unfold unmoved at hall ⊢
    rw [List.filter_append, List.filter_append, hall]
  have hnone : (tabs.filter fun t ↦ decide (id t ∈ ids)).filter p = [] := by
    refine List.filter_eq_nil_iff.mpr fun t ht hpt ↦ ?_
    exact hp t hpt (of_decide_eq_true (List.mem_filter.mp ht).2)
  have hfilter : (moveBlock id tabs ids i).filter p = tabs.filter p := by
    unfold moveBlock
    rw [List.filter_append, List.filter_append, hnone, List.append_nil, ← List.filter_append,
      List.take_append_drop, filter_unmoved hp]
  unfold Together
  rw [hfilter]
  unfold moveBlock
  rcases hi with hi | hi
  · have hdrop : tabs.filter p <:+: (unmoved id tabs ids).drop (insertAt id tabs ids i) := by
      conv_rhs => rw [hrest]
      rw [List.append_assoc, List.drop_append_of_le_length hi]
      exact ⟨_, unmoved id back ids, List.append_assoc _ _ _⟩
    exact hdrop.trans ⟨_, [], List.append_nil _⟩
  · have htake : tabs.filter p <:+: (unmoved id tabs ids).take (insertAt id tabs ids i) := by
      conv_rhs => rw [hrest]
      rw [List.take_append, List.take_of_length_le (by rw [List.length_append]; exact hi)]
      exact ⟨unmoved id front ids, _, rfl⟩
    rw [List.append_assoc]
    exact htake.trans ⟨[], _, rfl⟩

end

/-! ## Runs -/

/-- The tabs of a group that are open. -/
def isIn (id : α → τ) (g : Group τ) (t : α) : Bool := id t ∈ g.members

/-- **In every workspace that is reached the bar shows every open tab once and the open tabs of a
group together; moving tabs permutes them; and a group whose tabs stand together in the order of the
tabs is not torn apart by a move of all of them, or by one that puts none between them.** -/
theorem run_bar {s : Session τ} {es : List (Nat × Action τ)}
    (hr : Run step (fun s e _ ↦ NamesPanes s.ws e.2) ({} : Session τ) es s)
    (hnodup : (tabs.map id).Nodup) (ids : List τ) (i : Int) :
    (shownInBar id tabs s.ws.groups).Perm tabs ∧
    (∀ g ∈ s.ws.groups, openTabs id tabs g <:+: shownInBar id tabs s.ws.groups) ∧
    (moveBlock id tabs ids i).Perm tabs ∧
    (∀ g ∈ s.ws.groups, openTabs id (moveBlock id tabs ids i) g <:+:
      shownInBar id (moveBlock id tabs ids i) s.ws.groups) ∧
    ∀ g ∈ s.ws.groups, ∀ front back, tabs = front ++ tabs.filter (isIn id g) ++ back →
      (∀ t ∈ g.members, t ∈ ids) ∨ (∀ t ∈ g.members, t ∉ ids) ∧
        (insertAt id tabs ids i ≤ (unmoved id front ids).length ∨
          (unmoved id front ids).length + (tabs.filter (isIn id g)).length ≤
            insertAt id tabs ids i) →
      Together (isIn id g) (moveBlock id tabs ids i) := by
  have hd : Distinct _ s.ws.groups := run_distinct hr
  have hperm : (moveBlock id tabs ids i).Perm tabs := moveBlock_perm
  have hnodup' : ((moveBlock id tabs ids i).map id).Nodup := (hperm.map id).nodup_iff.mpr hnodup
  refine ⟨shownInBar_perm hd hnodup, fun g hg ↦ openTabs_infix hd hnodup hg, hperm,
    fun g hg ↦ openTabs_infix hd hnodup' hg, fun g _ front back he hmove ↦ ?_⟩
  rcases hmove with hmoved | ⟨hunmoved, hi⟩
  · exact together_of_moved (fun t ht ↦ hmoved _ (of_decide_eq_true ht)) ⟨front, back, he.symm⟩
  · exact together_of_unmoved (fun t ht ↦ hunmoved _ (of_decide_eq_true ht)) he hi

end

/-! Two tabs in a split, and a third one that is moved. -/

private def splitAndThird : List (Nat × Action Nat) :=
  [(1, .addTab 1 true), (2, .setLayoutMode (some .splitRight)), (3, .addTab 2 true),
    (4, .addTab 3 true)]

theorem run_bar_third : ∃ s : Session Nat, Run step free {} splitAndThird s ∧
    (shownInBar id [1, 3, 2] s.ws.groups).Perm [1, 3, 2] := by
  have h : execIf step (fun s e ↦ decide (KeepsFocus s.ws e.2)) ({} : Session Nat)
      splitAndThird = some _ := rfl
  have hrun := (run_of_execIf h).mono fun _ _ _ hk ↦
    namesPanes_of_keepsFocus (of_decide_eq_true hk)
  exact ⟨_, hrun.forget, (run_bar hrun (by decide) [3] 0).1⟩

/-- The third tab is moved between the two, whose split it is not in. -/
theorem moveBlock_between_two : ∃ s : Session Nat, Run step free {} splitAndThird s ∧
    (∀ g ∈ s.ws.groups, Together (isIn id g) [1, 2, 3]) ∧
      ¬ ∀ g ∈ s.ws.groups, Together (isIn id g) (moveBlock id [1, 2, 3] [3] 1) := by
  have h : exec step ({} : Session Nat) splitAndThird = some _ := rfl
  refine ⟨_, run_of_exec h, ?_, ?_⟩
  · unfold Together
    decide
  · unfold Together
    decide

end Shellius.Layout
