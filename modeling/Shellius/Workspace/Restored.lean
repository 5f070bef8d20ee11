import Mathlib.Data.Nat.Digits.Defs
import Shellius.Workspace.Stored

/-!
# What is restored

A workspace that `sanitize` makes is in shape and shows open tabs only.  What the storage can hold
and what the loop does not look at is a condition here: a group may name an open tab twice, two
groups may have one identifier, and a name that is cut may end in a blank, which goes when it is
read again.
-/

namespace Shellius.Layout

open Lib

/-! ## Workspaces in shape -/

/-- A group has the panes of its mode, and one of them is in focus. -/
structure Split.Shaped (s : Split) : Prop where
  split : s.mode ≠ .single
  length : s.panes.length = paneCount s.mode
  focus : s.focusedPane < s.panes.length

structure StoredWorkspace.Sound (ws : StoredWorkspace) : Prop where
  distinct : (ws.groups.flatMap fun g ↦ g.tabs).Nodup
  shaped : ∀ g ∈ ws.groups, g.Shaped
  ids : ws.groups.Pairwise fun g h ↦ ¬ Json.same g.id h.id
  offscreen : ∀ g ∈ ws.groups, (∃ t ∈ g.tabs, t.val = ws.activeTabId) ∨ 2 ≤ g.tabs.length

structure StoredWorkspace.Open (ws : StoredWorkspace) (tabIds : List Scalar) : Prop where
  groups : ∀ g ∈ ws.groups, ∀ t ∈ g.tabs, t.val ∈ tabIds
  active : ws.activeTabId = .null ∨ ws.activeTabId ∈ tabIds

/-- Every tab stands where it stood, and the same one is active. -/
structure SamePlacement (tabIds : List Scalar) (ws out : StoredWorkspace) : Prop where
  groups : out.groups.map StoredGroup.toSplit = ws.groups.map StoredGroup.toSplit
  active : ws.activeTabId ∈ tabIds → out.activeTabId = ws.activeTabId

/-- A split is as it was, unless it is a grid of two tabs: these stand side by side then, and what
was in focus is. -/
def Reset (s s' : Split) : Prop :=
  if s.mode = .grid ∧ s.tabs.length = 2 then
    s'.mode = .splitRight ∧ s'.panes = s.tabs.map some ∧
      ∀ t, s.panes[s.focusedPane]? = some (some t) → s'.panes[s'.focusedPane]? = some (some t)
  else s' = s

/-- The splits of two tabs and more are what they were, and the same tab is active. -/
structure Resettled (tabIds : List Scalar) (ws out : StoredWorkspace) : Prop where
  groups : List.Forall₂ Reset
    ((ws.groups.map StoredGroup.toSplit).filter fun s ↦ 2 ≤ s.tabs.length)
    (out.groups.map StoredGroup.toSplit)
  active : ws.activeTabId ∈ tabIds → out.activeTabId = ws.activeTabId

/-- What restoring a value promises, with what becomes of a workspace that is in shape. -/
def Restores (Returned : StoredWorkspace → StoredWorkspace → Prop) (stamp : Nat → String)
    (tabIds : List Scalar) (value : Json) : Prop :=
  ∃ out, restore stamp tabIds value = some out ∧ out.Sound ∧ out.Open tabIds ∧
    (∀ stamp', restore stamp' tabIds out.toJson = some out) ∧
    ∀ ws : StoredWorkspace, value = ws.toJson → ws.Sound → ws.Open tabIds → Returned ws out

inductive Saved where
  | workspace (ws : Json)
  | layout (old : Json) (activeTabId : Option Json)

/-- What `sanitize` is given. -/
def Saved.value (stamp : Nat → String) : Saved → Json
  | .workspace ws => ws
  | .layout old activeTabId => migrateLegacyLayout stamp old activeTabId

/-! ## Groups that are kept -/

/-- A group with two free tabs: its identifier, these tabs and the name that is stored. -/
structure KeptGroup where
  id : Json
  tabs : List StoredTab
  name : Option String

section

variable (stamp : Nat → String) (alive : List Scalar)

/-- The groups with two tabs that are open and in none of the kept groups before. -/
def keptFrom : List Json → Nat → List StoredTab → List KeptGroup
  | [], _, _ => []
  | g :: rest, made, seen =>
    match (g.field "mode").bind splitMode with
    | none => keptFrom rest made seen
    | some mode =>
      let tabs := (freePanes alive seen mode g).reduceOption
      if tabs.length ≤ 1 then keptFrom rest (madeAfter made g) seen
      else ⟨(storedId g).getD (.scalar (.string (madeId stamp made))), tabs,
        storedName (g.field "name")⟩ :: keptFrom rest (madeAfter made g) (seen ++ tabs)

/-- No kept group has a tab twice, their identifiers differ, and no name of theirs is cut at a
blank. -/
structure Restorable (gs : List Json) : Prop where
  short : gs.length < 2 ^ 32
  once : ∀ k ∈ keptFrom stamp alive gs 0 [], k.tabs.Nodup
  ids : (keptFrom stamp alive gs 0 []).Pairwise fun k l ↦ ¬ Json.same k.id l.id
  names : ∀ k ∈ keptFrom stamp alive gs 0 [], ∀ name ∈ k.name,
    ∀ c ∈ (slice 60 (trim name).toList).getLast?, isSpace c = false

end

/-! ## Names -/

structure Lasting (name : String) : Prop where
  nonempty : trim name ≠ ""
  cut : cutName name = name

theorem lasting_ofList {cs : List Char} (hne : cs ≠ [])
    (hhead : ∀ c ∈ cs.head?, isSpace c = false) (hlast : ∀ c ∈ cs.getLast?, isSpace c = false)
    (hcut : slice 60 cs = cs) : Lasting (.ofList cs) where
  nonempty := by
    rw [trim_ofList hhead hlast]
    intro h
    exact hne (by rw [← String.toList_ofList (l := cs), h]; rfl)
  cut := by
    unfold cutName
    rw [trim_ofList hhead hlast, String.toList_ofList, hcut]

theorem lasting_cutName {name : String} (hname : trim name ≠ "")
    (hlast : ∀ c ∈ (slice 60 (trim name).toList).getLast?, isSpace c = false) :
    Lasting (cutName name) := by
  have hhead : (slice 60 (trim name).toList).head? = (trim name).toList.head? :=
    head?_slice (by decide) _
  refine lasting_ofList ?_ ?_ hlast (slice_slice 60 _)
  · intro hnil
    rw [hnil] at hhead
    have htrim := List.head?_eq_none_iff.mp hhead.symm
    exact hname (String.toList_inj.mp htrim)
  · rw [hhead]
    exact head?_trim name

theorem exists_firstFreeFrom (taken : List String) (f : Nat → String) (n i : Nat) :
    ∃ j ≤ i + n, firstFreeFrom taken f n i = f j := by
  induction n generalizing i with
  | zero => exact ⟨i, le_rfl, rfl⟩
  | succ n ih =>
    rw [firstFreeFrom]
    split
    · obtain ⟨j, hj, he⟩ := ih (i + 1)
      exact ⟨j, by omega, he⟩
    · exact ⟨i, by omega, rfl⟩

theorem lt_of_isDigit {c : Char} (h : c.isDigit = true) : c.val < 0x10000 := by
  simp only [Char.isDigit, Bool.and_eq_true, decide_eq_true_eq] at h
  exact UInt32.lt_of_le_of_lt h.2 (by decide)

theorem lasting_nextName {used : List String} (hused : used.length < 2 ^ 32) :
    Lasting (nextName used) := by
  obtain ⟨j, hj, he⟩ := exists_firstFreeFrom used
    (fun n ↦ if n = 0 then "Workspace" else "Workspace " ++ toString (n + 1)) used.length 0
  unfold nextName firstFree
  rw [he]
  by_cases hzero : j = 0
  · rw [if_pos hzero]
    exact ⟨by decide +kernel, by decide +kernel⟩
  · rw [if_neg hzero]
    have hlist : "Workspace " ++ toString (j + 1) =
        String.ofList ("Workspace ".toList ++ Nat.toDigits 10 (j + 1)) := by
      rw [← Nat.toList_repr, ← String.toList_append, String.ofList_toList]
      rfl
    have hlen : (Nat.toDigits 10 (j + 1)).length ≤ 10 :=
      Nat.toDigits_length 10 (j + 1) 10 (by decide) (by omega)
    have hdigit : ∀ c ∈ Nat.toDigits 10 (j + 1), c.isDigit = true :=
      fun c hc ↦ Nat.isDigit_of_mem_toDigits (by decide) (by decide) hc
    rw [hlist]
    have hword : ∀ c ∈ "Workspace ".toList, c.val < 0x10000 := fun c hc ↦
      of_decide_eq_true (List.all_eq_true.mp
        (show "Workspace ".toList.all (fun c ↦ decide (c.val < 0x10000)) = true by decide) c hc)
    have hne : Nat.toDigits 10 (j + 1) ≠ [] := by
      rw [← Nat.toList_repr]
      exact fun h ↦ Nat.repr_ne_empty (String.toList_inj.mp h)
    refine lasting_ofList (List.append_ne_nil_of_left_ne_nil (by decide) _) ?_ ?_
      (slice_eq_self ?_ ?_)
    · intro c hc
      obtain rfl : 'W' = c := Option.some.inj hc
      decide
    · intro c hc
      rw [List.getLast?_append_of_ne_nil _ hne] at hc
      exact isSpace_of_isDigit (hdigit c (List.mem_of_getLast? hc))
    · intro c hc
      obtain hc | hc := List.mem_append.mp hc
      · exact hword c hc
      · exact lt_of_isDigit (hdigit c hc)
    · rw [List.length_append]
      have : "Workspace ".toList.length = 10 := by decide
      omega

/-! ## Groups -/

section

variable {stamp : Nat → String} {alive : List Scalar} {seen : List StoredTab} {s s' : Split}
  {g : Json} {mode : Mode} {t : StoredTab}

theorem freeTab_eq_some {p : Json} :
    freeTab alive seen p = some t ↔ p = .scalar t.val ∧ t.val ∈ alive ∧ t ∉ seen := by
  cases p with
  | array _ | object _ =>
    constructor
    · intro h
      cases h
    · intro h
      cases h.1
  | scalar s =>
    rw [freeTab]
    split
    · rename_i htrue
      rw [Option.ite_none_right_eq_some]
      constructor
      · rintro ⟨⟨halive, hseen⟩, h⟩
        obtain rfl := Option.some.inj h
        exact ⟨rfl, halive, hseen⟩
      · rintro ⟨h, halive, hseen⟩
        obtain rfl : s = t.val := Json.scalar.inj h
        exact ⟨⟨halive, hseen⟩, rfl⟩
    · rename_i hfalse
      constructor
      · intro h
        cases h
      · intro h
        obtain rfl : s = t.val := Json.scalar.inj h.1
        exact absurd t.property hfalse

theorem length_freePanes : (freePanes alive seen mode g).length = paneCount mode := by
  unfold freePanes
  rw [List.length_map, List.length_range]

theorem free_of_mem (h : t ∈ (freePanes alive seen mode g).reduceOption) :
    t.val ∈ alive ∧ t ∉ seen := by
  rw [List.reduceOption_mem_iff] at h
  obtain ⟨i, -, hi⟩ := List.mem_map.mp h
  obtain ⟨p, -, hp⟩ := Option.bind_eq_some_iff.mp hi
  exact (freeTab_eq_some.mp hp).2

theorem readFocus_lt (mode : Mode) (j : Option Json) : readFocus mode j < paneCount mode := by
  have hpos := paneCount_pos mode
  unfold readFocus
  split
  · split
    · omega
    · exact hpos
  · exact hpos

theorem compactSplit_eq_some (h : compactSplit s = some s') :
    s'.tabs = s.tabs ∧ 2 ≤ s.tabs.length ∧ Reset s s' ∧ compactSplit s' = some s' := by
  unfold compactSplit at h
  split at h
  · cases h
  · rename_i hlen
    split at h
    · rename_i hgrid
      obtain rfl := Option.some.inj h
      have htabs : Split.tabs ⟨.splitRight, s.tabs.map some,
          (max 0 (indexOf (s.tabs.map some) s.panes[s.focusedPane]?.join)).toNat⟩ = s.tabs :=
        reduceOption_map_some _
      refine ⟨htabs, by omega, ?_, ?_⟩
      · rw [Reset, if_pos hgrid]
        refine ⟨rfl, rfl, fun t ht ↦ ?_⟩
        have hmem : some t ∈ s.tabs.map some := by
          refine List.mem_map_of_mem (List.reduceOption_mem_iff.mpr ?_)
          exact List.mem_of_getElem? ht
        obtain ⟨n, hn, hget⟩ := exists_indexOf hmem
        dsimp only
        rw [ht, Option.join_some, hn, max_eq_right (by omega), Int.toNat_natCast]
        exact hget
      · unfold compactSplit
        rw [htabs, if_neg hlen, if_neg (fun hg ↦ Mode.noConfusion hg.1)]
    · rename_i hgrid
      obtain rfl := Option.some.inj h
      refine ⟨rfl, by omega, ?_, ?_⟩
      · rw [Reset, if_neg hgrid]
      · unfold compactSplit
        rw [if_neg hlen, if_neg hgrid]

theorem compactSplit_eq_none : compactSplit s = none ↔ s.tabs.length ≤ 1 := by
  unfold compactSplit
  split
  · rename_i h
    exact ⟨fun _ ↦ h, fun _ ↦ rfl⟩
  · rename_i h
    refine ⟨fun hn ↦ ?_, fun hle ↦ absurd hle h⟩
    split at hn <;> cases hn

theorem Split.Shaped.compact (hs : s.Shaped) (h : compactSplit s = some s') : s'.Shaped := by
  unfold compactSplit at h
  split at h
  · cases h
  · split at h
    · rename_i hgrid
      obtain rfl := Option.some.inj h
      have hlen : (s.tabs.map some).length = 2 := by rw [List.length_map, hgrid.2]
      refine ⟨Mode.noConfusion, hlen, ?_⟩
      have hlt := indexOf_lt (l := s.tabs.map some) (a := s.panes[s.focusedPane]?.join)
        (List.ne_nil_of_length_pos (by omega))
      dsimp only
      omega
    · obtain rfl := Option.some.inj h
      exact hs

/-! ## The loop -/

/-- A group that is read again as it is. -/
structure StoredGroup.Settled (alive : List Scalar) (g : StoredGroup) : Prop where
  id : g.id.truthy = true
  name : Lasting g.name
  shaped : g.Shaped
  compact : compactSplit g.toSplit = some g.toSplit
  alive : ∀ t ∈ g.tabs, t.val ∈ alive

structure MadeOf (alive : List Scalar) (k : KeptGroup) (g : StoredGroup) : Prop where
  id : g.id = k.id
  tabs : g.tabs = k.tabs
  settled : g.Settled alive

theorem splitMode_ne_single {j : Json} (h : splitMode j = some mode) : mode ≠ .single := by
  unfold splitMode at h
  split at h
  · obtain rfl := Option.some.inj h
    exact Mode.noConfusion
  · obtain rfl := Option.some.inj h
    exact Mode.noConfusion
  · obtain rfl := Option.some.inj h
    exact Mode.noConfusion
  · cases h

theorem truthy_readId (made : Nat) :
    ((storedId g).getD (.scalar (.string (madeId stamp made)))).truthy = true := by
  cases hid : storedId g with
  | some id => exact (Option.filter_eq_some_iff.mp hid).2
  | none =>
    have hne : madeId stamp made ≠ "" := by
      intro h
      have hlist := congrArg String.toList h
      rw [madeId, String.toList_append] at hlist
      cases hlist
    exact decide_eq_true hne

theorem trim_of_storedName {j : Option Json} {name : String} (h : storedName j = some name) :
    trim name ≠ "" := by
  unfold storedName at h
  split at h
  · obtain ⟨htrim, h⟩ := Option.ite_none_right_eq_some.mp h
    obtain rfl := Option.some.inj h
    exact htrim
  · cases h

theorem compactStored_eq_none {c : StoredGroup} :
    compactStored c = none ↔ c.tabs.length ≤ 1 := by
  rw [compactStored, Option.map_eq_none_iff]
  exact compactSplit_eq_none

theorem made_readGroup {made : Nat} {used : List String} {c : StoredGroup} {j : Json}
    (hsplit : mode ≠ .single) (hused : used.length < 2 ^ 32)
    (hname : ∀ name ∈ storedName (j.field "name"),
      ∀ c ∈ (slice 60 (trim name).toList).getLast?, isSpace c = false)
    (hc : compactStored (readGroup stamp alive made seen used mode j) = some c) :
    MadeOf alive ⟨(storedId j).getD (.scalar (.string (madeId stamp made))),
      (freePanes alive seen mode j).reduceOption, storedName (j.field "name")⟩ c := by
  obtain ⟨s, hs, rfl⟩ := Option.map_eq_some_iff.mp hc
  obtain ⟨htabs, -, -, hagain⟩ := compactSplit_eq_some hs
  have hshaped : (readGroup stamp alive made seen used mode j).Shaped := by
    refine ⟨hsplit, length_freePanes, ?_⟩
    exact lt_of_lt_of_eq (readFocus_lt mode _) length_freePanes.symm
  refine ⟨rfl, htabs, truthy_readId made, ?_, hshaped.compact hs, hagain, ?_⟩
  · show Lasting (((storedName (j.field "name")).map cutName).getD (nextName used))
    cases hn : storedName (j.field "name") with
    | none => exact lasting_nextName hused
    | some name => exact lasting_cutName (trim_of_storedName hn) (hname name hn)
  · intro t ht
    rw [htabs] at ht
    exact (free_of_mem ht).1

theorem restoreFrom_eq {N : Nat} (hN : N < 2 ^ 32) (gs : List Json) (made : Nat)
    (seen : List StoredTab) (groups : List StoredGroup) (hlen : groups.length + gs.length ≤ N)
    (hnames : ∀ k ∈ keptFrom stamp alive gs made seen, ∀ name ∈ k.name,
      ∀ c ∈ (slice 60 (trim name).toList).getLast?, isSpace c = false) :
    ∃ new, restoreFrom stamp alive gs made seen groups = groups ++ new ∧
      List.Forall₂ (MadeOf alive) (keptFrom stamp alive gs made seen) new := by
  induction gs generalizing made seen groups with
  | nil => exact ⟨[], (List.append_nil groups).symm, List.Forall₂.nil⟩
  | cons g rest ih =>
    rw [List.length_cons] at hlen
    cases hmode : (g.field "mode").bind splitMode with
    | none =>
      simp only [restoreFrom, keptFrom, hmode] at hnames ⊢
      exact ih made seen groups (by omega) hnames
    | some mode =>
      have hsplit : mode ≠ .single := by
        obtain ⟨j, -, hj⟩ := Option.bind_eq_some_iff.mp hmode
        exact splitMode_ne_single hj
      have hread : ∀ c, compactStored (readGroup stamp alive made seen
          (groups.map fun g ↦ g.name) mode g) = some c →
          (∀ name ∈ storedName (g.field "name"),
            ∀ c ∈ (slice 60 (trim name).toList).getLast?, isSpace c = false) →
          MadeOf alive _ c :=
        fun c hc hname ↦ made_readGroup hsplit (by rw [List.length_map]; omega) hname hc
      simp only [restoreFrom, keptFrom, hmode] at hnames ⊢
      cases hc : compactStored (readGroup stamp alive made seen
          (groups.map fun g ↦ g.name) mode g) with
      | none =>
        have hle : (freePanes alive seen mode g).reduceOption.length ≤ 1 :=
          compactStored_eq_none.mp hc
        rw [if_pos hle] at hnames ⊢
        exact ih (madeAfter made g) seen groups (by omega) hnames
      | some c =>
        have htwo : ¬ (freePanes alive seen mode g).reduceOption.length ≤ 1 := by
          intro hle
          have hnone : compactStored (readGroup stamp alive made seen
              (groups.map fun g ↦ g.name) mode g) = none := compactStored_eq_none.mpr hle
          rw [hnone] at hc
          cases hc
        rw [if_neg htwo] at hnames ⊢
        have hmade := hread c hc (hnames _ List.mem_cons_self)
        obtain ⟨new, hnew, hall⟩ := ih (madeAfter made g) (seen ++ c.tabs) (groups ++ [c])
          (by rw [List.length_append, List.length_singleton]; omega)
          (by
            rw [hmade.tabs]
            exact fun k hk ↦ hnames k (List.mem_cons_of_mem _ hk))
        refine ⟨c :: new, ?_, ?_⟩
        · dsimp only
          rw [hnew, List.append_assoc]
          rfl
        · rw [hmade.tabs] at hall
          exact List.Forall₂.cons hmade hall

theorem free_of_keptFrom {gs : List Json} {made : Nat} {k : KeptGroup}
    (hk : k ∈ keptFrom stamp alive gs made seen) : 2 ≤ k.tabs.length ∧ ∀ t ∈ k.tabs, t ∉ seen := by
  induction gs generalizing made seen with
  | nil => cases hk
  | cons g rest ih =>
    rw [keptFrom] at hk
    split at hk
    · exact ih hk
    · dsimp only at hk
      split at hk
      · exact ih hk
      · rename_i htwo
        obtain rfl | hk := List.mem_cons.mp hk
        · exact ⟨by dsimp only; omega, fun t ht ↦ (free_of_mem ht).2⟩
        · obtain ⟨hlen, hfree⟩ := ih hk
          exact ⟨hlen, fun t ht hseen ↦ hfree t ht (List.mem_append_left _ hseen)⟩

theorem nodup_keptFrom {gs : List Json} {made : Nat}
    (h : ∀ k ∈ keptFrom stamp alive gs made seen, k.tabs.Nodup) :
    ((keptFrom stamp alive gs made seen).flatMap KeptGroup.tabs).Nodup := by
  induction gs generalizing made seen with
  | nil => exact List.nodup_nil
  | cons g rest ih =>
    rw [keptFrom] at h ⊢
    split at h
    · exact ih h
    · dsimp only at h ⊢
      split at h
      · rename_i hle
        rw [if_pos hle]
        exact ih h
      · rename_i htwo
        rw [if_neg htwo, List.flatMap_cons, List.nodup_append']
        refine ⟨h _ List.mem_cons_self, ih fun k hk ↦ h k (List.mem_cons_of_mem _ hk), ?_⟩
        intro t ht hrest
        obtain ⟨k, hk, htk⟩ := List.mem_flatMap.mp hrest
        exact (free_of_keptFrom hk).2 t htk (List.mem_append_right _ ht)

/-! ## Reading a workspace again -/

section

variable (g : StoredGroup)

@[simp] theorem field_id : g.toJson.field "id" = some g.id := rfl

@[simp] theorem field_name : g.toJson.field "name" = some (.scalar (.string g.name)) := rfl

@[simp] theorem field_mode :
    g.toJson.field "mode" = some (.scalar (.string (modeName g.mode))) := rfl

@[simp] theorem field_panes : g.toJson.field "panes" =
    some (.array (g.panes.map fun p ↦ .scalar (p.elim .null Subtype.val))) := rfl

@[simp] theorem field_focusedPane :
    g.toJson.field "focusedPane" = some (.scalar (.number g.focusedPane)) := rfl

end

theorem splitMode_modeName (h : mode ≠ .single) :
    splitMode (.scalar (.string (modeName mode))) = some mode := by
  cases mode with
  | single => exact absurd rfl h
  | splitRight | splitDown | grid => rfl

theorem readFocus_natCast {n : Nat} (h : n < paneCount mode) :
    readFocus mode (some (.scalar (.number n))) = n := by
  rw [readFocus, Rat.den_natCast, Rat.num_natCast, if_pos (by omega), Int.toNat_natCast]

theorem freePanes_toJson {g : StoredGroup} (hs : g.Shaped)
    (hfree : ∀ t ∈ g.tabs, t.val ∈ alive ∧ t ∉ seen) :
    freePanes alive seen g.mode g.toJson = g.panes := by
  refine List.ext_getElem (length_freePanes.trans hs.length.symm) fun i hi' hi ↦ ?_
  have hget : (freePanes alive seen g.mode g.toJson)[i] =
      ((g.toJson.field "panes").bind (Json.element i)).bind (freeTab alive seen) := by
    simp [freePanes]
  rw [hget, field_panes, Option.bind_some, Json.element, List.getElem?_map,
    List.getElem?_eq_getElem hi, Option.map_some, Option.bind_some]
  cases hp : g.panes[i] with
  | none => rfl
  | some t =>
    have ht : t ∈ g.tabs := List.reduceOption_mem_iff.mpr (hp ▸ List.getElem_mem hi)
    exact freeTab_eq_some.mpr ⟨rfl, hfree t ht⟩

theorem toSplit_readGroup (stamp : Nat → String) {g : StoredGroup} (hs : g.Shaped)
    (hfree : ∀ t ∈ g.tabs, t.val ∈ alive ∧ t ∉ seen) (made : Nat) (used : List String) :
    (readGroup stamp alive made seen used g.mode g.toJson).toSplit = g.toSplit := by
  have hfocus : g.focusedPane < paneCount g.mode := hs.length ▸ hs.focus
  unfold readGroup
  dsimp only
  rw [freePanes_toJson hs hfree, field_focusedPane, readFocus_natCast hfocus]

theorem readGroup_of_settled {g : StoredGroup} (hg : g.Settled alive) (hfree : ∀ t ∈ g.tabs, t ∉ seen)
    (made : Nat) (used : List String) :
    readGroup stamp alive made seen used g.mode g.toJson = g := by
  have hsplit := toSplit_readGroup stamp hg.shaped
    (fun t ht ↦ ⟨hg.alive t ht, hfree t ht⟩) made used
  have hid : storedId g.toJson = some g.id := by
    rw [storedId, field_id, Option.filter_some, if_pos hg.id]
  have hname : storedName (g.toJson.field "name") = some g.name := by
    rw [field_name, storedName, if_pos hg.name.nonempty]
  have hreadId : (readGroup stamp alive made seen used g.mode g.toJson).id = g.id := by
    show (storedId g.toJson).getD _ = g.id
    rw [hid, Option.getD_some]
  have hreadName : (readGroup stamp alive made seen used g.mode g.toJson).name = g.name := by
    show ((storedName (g.toJson.field "name")).map cutName).getD _ = g.name
    rw [hname, Option.map_some, Option.getD_some, hg.name.cut]
  cases hread : readGroup stamp alive made seen used g.mode g.toJson with
  | mk split id name =>
    rw [hread] at hsplit hreadId hreadName
    cases hsplit
    cases hreadId
    cases hreadName
    rfl

theorem mode_toJson {g : StoredGroup} (h : g.mode ≠ .single) :
    (g.toJson.field "mode").bind splitMode = some g.mode := by
  rw [field_mode, Option.bind_some, splitMode_modeName h]

theorem toSplit_restoreFrom (stamp : Nat → String) (gs : List StoredGroup) (made : Nat) (seen : List StoredTab)
    (groups : List StoredGroup) (hs : ∀ g ∈ gs, g.Shaped)
    (hfree : ∀ g ∈ gs, ∀ t ∈ g.tabs, t.val ∈ alive ∧ t ∉ seen)
    (hnodup : (gs.flatMap fun g ↦ g.tabs).Nodup) :
    (restoreFrom stamp alive (gs.map StoredGroup.toJson) made seen groups).map
        StoredGroup.toSplit =
      groups.map StoredGroup.toSplit ++ (gs.map StoredGroup.toSplit).filterMap compactSplit := by
  induction gs generalizing made seen groups with
  | nil => exact (List.append_nil _).symm
  | cons g rest ih =>
    have hg := hs g List.mem_cons_self
    rw [List.flatMap_cons, List.nodup_append'] at hnodup
    obtain ⟨-, hrest, hdisjoint⟩ := hnodup
    have hread := toSplit_readGroup stamp hg (hfree g List.mem_cons_self) made
      (groups.map fun g ↦ g.name)
    have hfreeRest : ∀ h ∈ rest, ∀ t ∈ h.tabs, t.val ∈ alive ∧ t ∉ seen :=
      fun h hh ↦ hfree h (List.mem_cons_of_mem _ hh)
    rw [List.map_cons, restoreFrom, mode_toJson hg.split]
    dsimp only
    rw [compactStored, hread, List.map_cons, List.filterMap_cons]
    cases hc : compactSplit g.toSplit with
    | none => exact ih _ seen groups (fun h hh ↦ hs h (List.mem_cons_of_mem _ hh)) hfreeRest hrest
    | some s =>
      obtain ⟨htabs, -⟩ := compactSplit_eq_some hc
      dsimp only [Option.map_some]
      rw [ih _ _ _ (fun h hh ↦ hs h (List.mem_cons_of_mem _ hh)) ?_ hrest]
      · rw [List.map_append, List.append_assoc]
        rfl
      · intro h hh t ht
        obtain ⟨halive, hseen⟩ := hfreeRest h hh t ht
        refine ⟨halive, fun hmem ↦ ?_⟩
        obtain hmem | hmem := List.mem_append.mp hmem
        · exact hseen hmem
        · rw [htabs] at hmem
          exact hdisjoint hmem (List.mem_flatMap.mpr ⟨h, hh, ht⟩)

theorem restoreFrom_of_settled (stamp : Nat → String) (gs : List StoredGroup) (made : Nat) (seen : List StoredTab)
    (groups : List StoredGroup) (hs : ∀ g ∈ gs, g.Settled alive)
    (hfree : ∀ g ∈ gs, ∀ t ∈ g.tabs, t ∉ seen) (hnodup : (gs.flatMap fun g ↦ g.tabs).Nodup) :
    restoreFrom stamp alive (gs.map StoredGroup.toJson) made seen groups = groups ++ gs := by
  induction gs generalizing made seen groups with
  | nil => exact (List.append_nil groups).symm
  | cons g rest ih =>
    have hg := hs g List.mem_cons_self
    rw [List.flatMap_cons, List.nodup_append'] at hnodup
    obtain ⟨-, hrest, hdisjoint⟩ := hnodup
    have hkept : compactStored g = some g := by
      rw [compactStored, hg.compact]
      rfl
    rw [List.map_cons, restoreFrom, mode_toJson hg.shaped.split]
    dsimp only
    rw [readGroup_of_settled hg (hfree g List.mem_cons_self), hkept]
    dsimp only
    rw [ih _ _ _ (fun h hh ↦ hs h (List.mem_cons_of_mem _ hh)) ?_ hrest, List.append_assoc]
    · rfl
    · intro h hh t ht hmem
      obtain hmem | hmem := List.mem_append.mp hmem
      · exact hfree h (List.mem_cons_of_mem _ hh) t ht hmem
      · exact hdisjoint hmem (List.mem_flatMap.mpr ⟨h, hh, ht⟩)

/-! ## What is on the screen -/

theorem pruneStored_eq {groups : List StoredGroup} (h : ∀ g ∈ groups, 2 ≤ g.tabs.length)
    (activeTabId : Scalar) : pruneStored groups activeTabId = groups := by
  unfold pruneStored
  rw [List.filter_eq_self.mpr, List.zipIdx_map_fst]
  intro p hp
  exact decide_eq_true (.inr (h p.1 (List.fst_mem_of_mem_zipIdx hp)))

theorem lastTab_open (alive : List Scalar) : lastTab alive = .null ∨ lastTab alive ∈ alive := by
  unfold lastTab
  split
  · rename_i s hs
    split
    · exact .inr (List.mem_of_getLast? hs)
    · exact .inl rfl
  · exact .inl rfl

theorem restoredActive_of_mem {s : Scalar} (h : s ∈ alive) :
    restoredActive alive (some (.scalar s)) = s := if_pos h

theorem restoredActive_cases (alive : List Scalar) (activeTabId : Option Json) :
    restoredActive alive activeTabId ∈ alive ∨ restoredActive alive activeTabId = lastTab alive := by
  unfold restoredActive
  split
  · split
    · rename_i h
      exact .inl h
    · exact .inr rfl
  · exact .inr rfl

theorem restoredActive_open (alive : List Scalar) (activeTabId : Option Json) :
    restoredActive alive activeTabId = .null ∨ restoredActive alive activeTabId ∈ alive := by
  obtain h | h := restoredActive_cases alive activeTabId
  · exact .inr h
  · rw [h]
    exact lastTab_open alive

theorem restoredActive_again (alive : List Scalar) (activeTabId : Option Json) :
    restoredActive alive (some (.scalar (restoredActive alive activeTabId))) =
      restoredActive alive activeTabId := by
  obtain h | h := restoredActive_cases alive activeTabId
  · exact restoredActive_of_mem h
  · rw [h, restoredActive]
    split <;> rfl

/-! ## Restoring -/

theorem storedGroups_toJson (ws : StoredWorkspace) :
    storedGroups ws.toJson = some (ws.groups.map StoredGroup.toJson) := rfl

theorem active_toJson (ws : StoredWorkspace) :
    ws.toJson.field "activeTabId" = some (.scalar ws.activeTabId) := rfl

theorem exists_of_forall₂ {α β : Type*} {R : α → β → Prop} {l : List α} {m : List β}
    (h : List.Forall₂ R l m) : ∀ b ∈ m, ∃ a ∈ l, R a b := by
  induction h with
  | nil => exact fun b hb ↦ absurd hb List.not_mem_nil
  | cons hab _ ih =>
    intro b hb
    obtain rfl | hb := List.mem_cons.mp hb
    · exact ⟨_, List.mem_cons_self, hab⟩
    · obtain ⟨a, ha, hR⟩ := ih b hb
      exact ⟨a, List.mem_cons_of_mem _ ha, hR⟩

theorem map_eq_of_forall₂ {α β γ : Type*} {R : α → β → Prop} {l : List α} {m : List β} {e : α → γ}
    {f : β → γ} (h : List.Forall₂ R l m) (hR : ∀ a b, R a b → f b = e a) : m.map f = l.map e := by
  induction h with
  | nil => rfl
  | cons hab _ ih => rw [List.map_cons, List.map_cons, hR _ _ hab, ih]

theorem forall₂_reset (ss : List Split) :
    List.Forall₂ Reset (ss.filter fun s ↦ 2 ≤ s.tabs.length) (ss.filterMap compactSplit) := by
  induction ss with
  | nil => exact List.Forall₂.nil
  | cons s ss ih =>
    rw [List.filterMap_cons]
    cases hc : compactSplit s with
    | none =>
      have hlen := compactSplit_eq_none.mp hc
      rw [List.filter_cons, if_neg (by rw [decide_eq_true_eq]; omega)]
      exact ih
    | some s' =>
      obtain ⟨-, hlen, hreset, -⟩ := compactSplit_eq_some hc
      rw [List.filter_cons, if_pos (decide_eq_true hlen)]
      exact List.Forall₂.cons hreset ih

theorem restore_eq {value : Json} {gs : List Json} {groups : List StoredGroup}
    (hgs : storedGroups value = some gs) (hgroups : restoreFrom stamp alive gs 0 [] [] = groups)
    (htwo : ∀ g ∈ groups, 2 ≤ g.tabs.length) :
    restore stamp alive value =
      some ⟨groups, restoredActive alive (value.field "activeTabId")⟩ := by
  rw [restore, hgs, Option.map_some, hgroups]
  dsimp only
  rw [pruneStored_eq htwo]

theorem restore_toJson {ws : StoredWorkspace} (hs : ∀ g ∈ ws.groups, g.Settled alive)
    (hnodup : (ws.groups.flatMap fun g ↦ g.tabs).Nodup)
    (hactive : restoredActive alive (some (.scalar ws.activeTabId)) = ws.activeTabId) :
    restore stamp alive ws.toJson = some ws := by
  have hgroups := restoreFrom_of_settled stamp ws.groups 0 [] [] hs
    (fun _ _ _ _ ↦ List.not_mem_nil) hnodup
  rw [restore_eq (storedGroups_toJson ws) hgroups fun g hg ↦
    (compactSplit_eq_some (hs g hg).compact).2.1, active_toJson, hactive]
  rfl

theorem resettled_of_restore {ws out : StoredWorkspace} (hsound : ws.Sound) (hopen : ws.Open alive)
    (hout : restore stamp alive ws.toJson = some out) : Resettled alive ws out := by
  have hsplits := toSplit_restoreFrom stamp ws.groups 0 [] [] hsound.shaped
    (fun g hg t ht ↦ ⟨hopen.groups g hg t ht, List.not_mem_nil⟩) hsound.distinct
  rw [List.map_nil, List.nil_append] at hsplits
  have htwo : ∀ g ∈ restoreFrom stamp alive (ws.groups.map StoredGroup.toJson) 0 [] [],
      2 ≤ g.tabs.length := by
    intro g hg
    have hmem := List.mem_map_of_mem (f := StoredGroup.toSplit) hg
    rw [hsplits] at hmem
    obtain ⟨s, -, hs⟩ := List.mem_filterMap.mp hmem
    obtain ⟨htabs, hlen, -⟩ := compactSplit_eq_some hs
    rw [htabs]
    exact hlen
  rw [restore_eq (storedGroups_toJson ws) rfl htwo] at hout
  obtain rfl := Option.some.inj hout
  refine ⟨?_, fun hmem ↦ restoredActive_of_mem hmem⟩
  dsimp only
  rw [hsplits]
  exact forall₂_reset _

/-- A stored value whose groups can be gone through and are `Restorable` is restored: what comes out
is in shape, shows open tabs, and is what it is restored to again.  Of a workspace that was in shape
the splits with two tabs are kept. -/
theorem sanitize_restores (stamp : Nat → String) (saved : Saved) (tabIds : List Scalar)
    {gs : List Json} (hgs : storedGroups (saved.value stamp) = some gs)
    (h : Restorable stamp tabIds gs) :
    Restores (Resettled tabIds) stamp tabIds (saved.value stamp) := by
  generalize saved.value stamp = value at hgs ⊢
  obtain ⟨new, hnew, hall⟩ := restoreFrom_eq h.short gs 0 [] [] (by simp) h.names
  rw [List.nil_append] at hnew
  have hmade := exists_of_forall₂ hall
  have htabs := map_eq_of_forall₂ (e := KeptGroup.tabs) (f := fun g ↦ g.tabs) hall
    fun _ _ hk ↦ hk.tabs
  have hids := map_eq_of_forall₂ (e := KeptGroup.id) (f := StoredGroup.id) hall fun _ _ hk ↦ hk.id
  have hsettled : ∀ g ∈ new, g.Settled tabIds := by
    intro g hg
    obtain ⟨k, -, hk⟩ := hmade g hg
    exact hk.settled
  have htwo : ∀ g ∈ new, 2 ≤ g.tabs.length := fun g hg ↦
    (compactSplit_eq_some (hsettled g hg).compact).2.1
  have hdistinct : (new.flatMap fun g ↦ g.tabs).Nodup := by
    rw [List.flatMap_def, htabs, ← List.flatMap_def]
    exact nodup_keptFrom h.once
  have hout := restore_eq hgs hnew htwo
  refine ⟨_, hout, ⟨hdistinct, fun g hg ↦ (hsettled g hg).shaped, ?_, fun g hg ↦ .inr (htwo g hg)⟩,
    ⟨fun g hg ↦ (hsettled g hg).alive, restoredActive_open _ _⟩, ?_, ?_⟩
  · rw [← List.pairwise_map (f := StoredGroup.id) (R := fun a b ↦ ¬ Json.same a b), hids,
      List.pairwise_map]
    exact h.ids
  · exact fun stamp' ↦ restore_toJson hsettled hdistinct (restoredActive_again _ _)
  · rintro ws rfl hsound hopen
    exact resettled_of_restore hsound hopen hout

/-- A layout of an older version becomes a group, as its tabs are open. -/
theorem sanitize_restores_in_use :
    Restores (Resettled [.string "a", .string "b", .string "c"]) (fun n ↦ toString n)
      [.string "a", .string "b", .string "c"]
      (migrateLegacyLayout (fun n ↦ toString n)
        (.object [("mode", .scalar (.string "split-right")),
          ("panes", .array [.scalar (.string "a"), .scalar (.string "b")])])
        (some (.scalar (.string "b")))) :=
  sanitize_restores (fun n ↦ toString n)
    (.layout (.object [("mode", .scalar (.string "split-right")),
      ("panes", .array [.scalar (.string "a"), .scalar (.string "b")])])
      (some (.scalar (.string "b"))))
    [.string "a", .string "b", .string "c"] rfl
    { short := by decide +kernel
      once := by decide +kernel
      ids := by decide +kernel
      names := fun k hk name hname c hc ↦ by
        obtain rfl := List.mem_singleton.mp hk
        obtain rfl : "Workspace" = name := Option.some.inj hname
        obtain rfl : 'e' = c := Option.some.inj hc
        decide }

def waiting : StoredWorkspace where
  groups := [
    { mode := .splitRight
      panes := [some ⟨.string "a", by decide⟩, none]
      focusedPane := 1
      id := .scalar (.string "grp_1")
      name := "Workspace" }]
  activeTabId := .string "a"

/-- The split on the screen is gone when it waited for its second tab. -/
theorem sanitize_ungroups_a_waiting_split :
    ¬ Restores (SamePlacement [.string "a"]) (fun n ↦ toString n) [.string "a"]
      (Saved.value (fun n ↦ toString n) (.workspace waiting.toJson)) := by
  rintro ⟨out, hout, -, -, -, hsame⟩
  have hempty : (restore (fun n ↦ toString n) [.string "a"] waiting.toJson).map
      (fun ws ↦ ws.groups.length) = some 0 := by decide +kernel
  have hout' : restore (fun n ↦ toString n) [.string "a"] waiting.toJson = some out := hout
  rw [hout'] at hempty
  have hsound : waiting.Sound := ⟨by decide +kernel, ?_, by decide +kernel, ?_⟩
  · have hplaced := (hsame waiting rfl hsound ⟨by decide +kernel, by decide +kernel⟩).groups
    have hlen := congrArg List.length hplaced
    have hnone : out.groups.length = 0 := Option.some.inj hempty
    rw [List.length_map, hnone] at hlen
    cases hlen
  · intro g hg
    rw [List.mem_singleton.mp hg]
    exact ⟨by decide, by decide, by decide⟩
  · intro g hg
    exact .inl ⟨⟨.string "a", by decide⟩, by rw [List.mem_singleton.mp hg]; decide, rfl⟩

end

end Shellius.Layout
