import Shellius.Lib.Pool
import Shellius.Users.Groups

/-!
# One's own customer scope

What one user can make of their own scope by changing scopes and groups.
`assignUserScope` and `updateUser` keep their hands off the caller's own row and
memberships, and nobody may grant a customer they do not see.  Two ways remain:
`addMember` lets the caller join any group, and `assignGroupScope` lets them open
a group they are in to the whole organization.  The scope stays within what it
was just when neither is taken.
-/

namespace Shellius

open Lib

/-! ## Runs -/

/-- A call that changes a scope or the members of a group. -/
inductive ScopeCall where
  | assignUserScope (actor : Actor) (userId : Id) (accessScope : AccessScope)
      (customerIds : List Id)
  | updateUser (actor : Actor) (userId : Id) (data : UserData)
  | addMember (actor : Actor) (groupId userId : Id)
  | removeMember (actor : Actor) (groupId userId : Id)
  | assignGroupScope (actor : Actor) (groupId : Id) (accessScope : AccessScope)
      (customerIds : List Id)

def ScopeCall.actor : ScopeCall → Actor
  | .assignUserScope actor _ _ _ | .updateUser actor _ _ | .addMember actor _ _
  | .removeMember actor _ _ | .assignGroupScope actor _ _ _ => actor

/-- The tables after a call of the user, who has the scope they have then.  A call
that is refused changes nothing and is no step; `updateUser` may fail after it
has moved somebody between groups. -/
def changeScope (rules : TextRules) (orgId callerId : Id) (t : Tenancy) (e : ScopeCall) :
    Option Tenancy :=
  if e.actor.userId ≠ callerId then none
  else
    match e with
    | .assignUserScope actor userId accessScope customerIds =>
      (assignUserScope t orgId userId accessScope customerIds (some actor)
        (t.scopeOf callerId)).toOption
    | .updateUser actor userId data => some (updateUser rules t orgId userId data (some actor)).1
    | .addMember _ groupId userId => (addMember t orgId groupId userId).toOption
    | .removeMember _ groupId userId => (removeMember t orgId groupId userId).toOption
    | .assignGroupScope actor groupId accessScope customerIds =>
      (assignGroupScope t orgId groupId accessScope customerIds (some actor)
        (t.scopeOf callerId)).toOption

/-- A call does not let the user at customers beyond the list: they join no group
that sees the whole organization or a customer beyond the list, and open no group
of theirs to the whole organization. -/
def KeepsOut (orgId callerId : Id) (customerIds : List Id) (t : Tenancy) : ScopeCall → Prop
  | .addMember _ groupId userId => userId = callerId →
      ∀ g ∈ t.group orgId groupId, g.accessScope = .customers ∧
        ∀ s ∈ t.groupCustomerScopes, s.groupId = g.id → s.customerId ∈ customerIds
  | .assignGroupScope _ groupId accessScope _ =>
    ⟨groupId, callerId⟩ ∈ t.groupMemberships → accessScope = .customers
  | _ => True

instance (orgId callerId : Id) (customerIds : List Id) (t : Tenancy) :
    (e : ScopeCall) → Decidable (KeepsOut orgId callerId customerIds t e)
  | .addMember _ groupId userId =>
    inferInstanceAs (Decidable (userId = callerId → ∀ g ∈ t.group orgId groupId, _ ∧ _))
  | .assignGroupScope _ groupId accessScope _ =>
    inferInstanceAs
      (Decidable (⟨groupId, callerId⟩ ∈ t.groupMemberships → accessScope = .customers))
  | .assignUserScope _ _ _ _ | .updateUser _ _ _ | .removeMember _ _ _ => .isTrue trivial

/-! ## The rows a scope is made of -/

structure Confined (t : Tenancy) (userId : Id) (customerIds : List Id) : Prop where
  row : ∃ u, t.users.find userId = some u ∧ u.role ≠ .superAdmin ∧ u.accessScope = .customers
  own : ∀ s ∈ t.userCustomerScopes, s.userId = userId → s.customerId ∈ customerIds
  groups : ∀ g ∈ t.groups, ⟨g.id, userId⟩ ∈ t.groupMemberships →
    g.accessScope = .customers ∧
      ∀ s ∈ t.groupCustomerScopes, s.groupId = g.id → s.customerId ∈ customerIds

section

variable {rules : TextRules} {t t' : Tenancy} {orgId userId callerId groupId : Id}
  {customerIds : List Id} {actor : Actor}

theorem within_iff_confined :
    (t.scopeOf userId).Within (.customers customerIds) ↔ Confined t userId customerIds := by
  cases hu : t.users.find userId with
  | none =>
    rw [Tenancy.scopeOf, hu]
    exact ⟨fun h ↦ h.elim, fun ⟨⟨u, hu', _⟩, _, _⟩ ↦ by rw [hu] at hu'; cases hu'⟩
  | some u =>
    have hid : u.id = userId := (Keyed.key_of_find hu :)
    rw [Tenancy.scopeOf, hu, Option.map_some, Option.getD_some, Tenancy.resolveScope]
    split
    · rename_i hrole
      refine ⟨fun h ↦ h.elim, ?_⟩
      rintro ⟨⟨u', hu', hrole', -⟩, -, -⟩
      obtain rfl := Option.some.inj (hu.symm.trans hu')
      exact absurd hrole hrole'
    · rename_i hrole
      split
      · rename_i hall
        refine ⟨fun h ↦ h.elim, ?_⟩
        rintro ⟨⟨u', hu', -, hscope⟩, -, -⟩
        obtain rfl := Option.some.inj (hu.symm.trans hu')
        exact absurd hscope hall
      · rename_i hscope
        rw [not_not] at hscope
        dsimp only
        split
        · rename_i hany
          refine ⟨fun h ↦ h.elim, fun hc ↦ ?_⟩
          obtain ⟨g, hg, hall⟩ := List.any_eq_true.mp hany
          obtain ⟨hg, hm⟩ := Tenancy.mem_groupsOf.mp hg
          rw [(hc.groups g hg (hid ▸ hm)).1] at hall
          cases hall
        · rename_i hany
          have hgroups : ∀ g ∈ t.groups, ⟨g.id, userId⟩ ∈ t.groupMemberships →
              g.accessScope = .customers := by
            intro g hg hm
            cases hs : g.accessScope with
            | customers => rfl
            | all =>
              refine absurd (List.any_eq_true.mpr ⟨g, ?_, by simp [hs]⟩) hany
              exact Tenancy.mem_groupsOf.mpr ⟨hg, hid.symm ▸ hm⟩
          constructor
          · intro hsub
            refine ⟨⟨u, hu, hrole, hscope⟩, fun s hs hsu ↦ hsub ?_, fun g hg hm ↦
              ⟨hgroups g hg hm, fun s hs hsg ↦ hsub ?_⟩⟩
            · refine List.mem_eraseDups.mpr (List.mem_append_left _ ?_)
              exact List.mem_map_of_mem (List.mem_filter.mpr ⟨hs, by simp [hsu, hid]⟩)
            · refine List.mem_eraseDups.mpr (List.mem_append_right _ ?_)
              refine List.mem_map_of_mem (List.mem_filter.mpr ⟨hs, decide_eq_true ?_⟩)
              refine List.mem_map.mpr ⟨g, List.mem_filter.mpr ⟨?_, ?_⟩, hsg.symm⟩
              · exact Tenancy.mem_groupsOf.mpr ⟨hg, hid.symm ▸ hm⟩
              · simp [hgroups g hg hm]
          · rintro ⟨-, hown, hvia⟩ c hc
            rcases List.mem_append.mp (List.mem_eraseDups.mp hc) with hc | hc
            · obtain ⟨s, hs, rfl⟩ := List.mem_map.mp hc
              obtain ⟨hs, hsu⟩ := List.mem_filter.mp hs
              exact hown s hs (by simpa [hid] using hsu)
            · obtain ⟨s, hs, rfl⟩ := List.mem_map.mp hc
              obtain ⟨hs, hsg⟩ := List.mem_filter.mp hs
              obtain ⟨g, hg, hgs⟩ := List.mem_map.mp (of_decide_eq_true hsg)
              obtain ⟨hg, hm⟩ := Tenancy.mem_groupsOf.mp (List.mem_filter.mp hg).1
              exact (hvia g hg (hid ▸ hm)).2 s hs hgs.symm

theorem Confined.frame (h : Confined t callerId customerIds)
    (hrow : ∀ u, t.users.find callerId = some u → ∃ u', t'.users.find callerId = some u' ∧
      u'.role = u.role ∧ u'.accessScope = u.accessScope)
    (hown : ∀ s ∈ t'.userCustomerScopes, s.userId = callerId → s ∈ t.userCustomerScopes)
    (hgroups : t'.groups = t.groups) (hscopes : t'.groupCustomerScopes = t.groupCustomerScopes)
    (hmember : ∀ m ∈ t'.groupMemberships, m.userId = callerId → m ∈ t.groupMemberships) :
    Confined t' callerId customerIds := by
  obtain ⟨u, hu, hrole, hscope⟩ := h.row
  obtain ⟨u', hu', hrole', hscope'⟩ := hrow u hu
  refine ⟨⟨u', hu', hrole' ▸ hrole, hscope'.trans hscope⟩, fun s hs hsu ↦
    h.own s (hown s hs hsu) hsu, fun g hg hm ↦ ?_⟩
  rw [hscopes]
  exact h.groups g (hgroups ▸ hg) (hmember _ hm rfl)

/-! ## One call -/

theorem not_isSelf (h : ¬ isSelf (some actor) userId = true) : userId ≠ actor.userId := by
  rintro rfl
  exact h (by simp [isSelf])

theorem find_rescopeUser_of_ne {accessScope : AccessScope} {us : Keyed fun u : ScopedUser ↦ u.id}
    (h : userId ≠ callerId) :
    (us.update (rescopeUser userId accessScope) rescopeUser_id).find callerId =
      us.find callerId := by
  rw [Keyed.find_update]
  cases hu : us.find callerId with
  | none => rfl
  | some u =>
    have hid : u.id ≠ userId := (Keyed.key_of_find hu :) ▸ h.symm
    rw [Option.map_some, rescopeUser, if_neg hid]

theorem assignUserScope_confined {accessScope : AccessScope} {ids : List Id} {callerScope : Scope}
    (hc : Confined t actor.userId customerIds)
    (h : assignUserScope t orgId userId accessScope ids (some actor) callerScope = .ok t') :
    Confined t' actor.userId customerIds := by
  simp only [assignUserScope, bind_eq_ok, demand_eq_ok, require_eq_ok, pure_eq_ok] at h
  obtain ⟨-, hself, -, -, -, -, granted, -, rfl⟩ := h
  have hne := not_isSelf hself
  refine hc.frame (fun u hu ↦ ?_) (fun s hs hsu ↦ ?_) rfl rfl fun m hm _ ↦ hm
  · exact ⟨u, (find_rescopeUser_of_ne hne).trans hu, rfl, rfl⟩
  · rcases List.mem_append.mp hs with hs | hs
    · exact (List.mem_filter.mp hs).1
    · obtain ⟨c, -, rfl⟩ := List.mem_map.mp hs
      exact absurd hsu hne

theorem Confined.setGroups (hc : Confined t callerId customerIds) (h : userId ≠ callerId)
    (groups : List ScopedGroup) :
    Confined (setGroups t orgId userId groups) callerId customerIds := by
  refine hc.frame (fun u hu ↦ ⟨u, hu, rfl, rfl⟩) (fun s hs _ ↦ hs) rfl rfl fun m hm hmu ↦ ?_
  rcases List.mem_append.mp hm with hm | hm
  · exact (List.mem_filter.mp hm).1
  · obtain ⟨g, -, rfl⟩ := List.mem_map.mp hm
    exact absurd hmu h

theorem Confined.editUser {edit : UserEdit} (hc : Confined t callerId customerIds)
    (h : userId = callerId → edit.role = none) :
    Confined { t with users := t.users.update (editUser userId edit) editUser_id } callerId
      customerIds := by
  refine hc.frame (fun u hu ↦ ⟨Shellius.editUser userId edit u, ?_, ?_, ?_⟩) (fun s hs _ ↦ hs)
    rfl rfl fun m hm _ ↦ hm
  · rw [Keyed.find_update, hu, Option.map_some]
  · unfold Shellius.editUser
    split
    · rename_i hid
      have hrole := h (hid.symm.trans (Keyed.key_of_find hu :))
      rw [UserEdit.apply, hrole]
      rfl
    · rfl
  · unfold Shellius.editUser
    split <;> rfl

theorem updateUser_confined {data : UserData} (hc : Confined t actor.userId customerIds) :
    Confined (updateUser rules t orgId userId data (some actor)).1 actor.userId customerIds := by
  have hcases : (updateUser rules t orgId userId data (some actor)).1 = t ∨ _ := updateUser_cases
  rcases hcases with h | ⟨edit, t₁, hcheck, happly, h⟩
  · rw [h]
    exact hc
  · obtain ⟨-, -, hself, -⟩ := checkUpdate_eq_ok hcheck
    have hself : userId = actor.userId → data.groupIds = none ∧ edit.role = none := by
      rintro rfl
      exact hself (by simp [isSelf])
    have hc₁ : Confined t₁ actor.userId customerIds := by
      rcases applyGroupMembership_eq_ok happly with ⟨-, rfl⟩ | ⟨groups, hasked, rfl⟩
      · exact hc
      · exact hc.setGroups (fun he ↦ hasked (hself he).1) groups
    rcases h with h | h
    · rw [h]
      exact hc₁
    · rw [h]
      exact hc₁.editUser fun he ↦ (hself he).2

theorem addMember_confined (hc : Confined t callerId customerIds)
    (h : addMember t orgId groupId userId = .ok t') :
    Confined t' callerId customerIds ↔
      KeepsOut orgId callerId customerIds t (.addMember actor groupId userId) := by
  simp only [addMember, bind_eq_ok, require_eq_ok, pure_eq_ok] at h
  obtain ⟨-, hgroup, -, -, -, -, rfl⟩ := h
  constructor
  · rintro hc' rfl g hg
    obtain ⟨hmem, rfl, -⟩ := Tenancy.group_eq_some.mp hg
    exact hc'.groups g hmem (List.mem_append_right _ (List.mem_singleton_self _))
  · intro hkeeps
    refine ⟨hc.row, hc.own, fun g hg hm ↦ ?_⟩
    rcases List.mem_append.mp hm with hm | hm
    · exact hc.groups g hg hm
    · obtain ⟨g', hg'⟩ := Option.isSome_iff_exists.mp hgroup
      obtain ⟨hmem, hid, -⟩ := Tenancy.group_eq_some.mp hg'
      obtain ⟨rfl, rfl⟩ := GroupMembership.mk.inj (List.mem_singleton.mp hm)
      exact hkeeps rfl g (Keyed.ext hmem hg hid ▸ hg')

theorem removeMember_confined (hc : Confined t callerId customerIds)
    (h : removeMember t orgId groupId userId = .ok t') : Confined t' callerId customerIds := by
  simp only [removeMember, bind_eq_ok, require_eq_ok, pure_eq_ok] at h
  obtain ⟨-, -, -, -, rfl⟩ := h
  exact hc.frame (fun u hu ↦ ⟨u, hu, rfl, rfl⟩) (fun s hs _ ↦ hs) rfl rfl
    fun m hm _ ↦ (List.mem_filter.mp hm).1

theorem checkGrant_eq_ok {callerScope : Scope} {accessScope : AccessScope} {ids granted : List Id}
    (h : checkGrant t orgId callerScope accessScope ids = .ok granted) :
    ∀ c ∈ granted, callerScope.admits c = true := by
  simp only [checkGrant, bind_eq_ok, require_eq_ok, pure_eq_ok] at h
  obtain ⟨-, hlen, rfl⟩ := h
  intro c hc
  obtain ⟨row, -, rfl, hrow⟩ := Keyed.exists_of_length_filter (t := t.customers)
    (fun a _ ha ↦ (of_decide_eq_true ha).1) hlen c hc
  exact (of_decide_eq_true hrow).2.2

theorem assignGroupScope_confined {accessScope : AccessScope} {ids : List Id}
    (hc : Confined t callerId customerIds)
    (h : assignGroupScope t orgId groupId accessScope ids (some actor) (t.scopeOf callerId) =
      .ok t') :
    Confined t' callerId customerIds ↔
      KeepsOut orgId callerId customerIds t (.assignGroupScope actor groupId accessScope ids) := by
  simp only [assignGroupScope, bind_eq_ok, require_eq_ok, pure_eq_ok] at h
  obtain ⟨-, -, -, hgroup, granted, hgranted, rfl⟩ := h
  have hwithin : ∀ c ∈ granted, c ∈ customerIds := by
    intro c hcg
    have hadmits := checkGrant_eq_ok hgranted c hcg
    have hscope := within_iff_confined.mpr hc
    cases hs : t.scopeOf callerId with
    | unscoped => rw [hs] at hscope; exact hscope.elim
    | customers own =>
      rw [hs] at hscope hadmits
      exact hscope (of_decide_eq_true hadmits)
  constructor
  · intro hc' hm
    obtain ⟨g, hg⟩ := Option.isSome_iff_exists.mp hgroup
    obtain ⟨hmem, rfl, -⟩ := Tenancy.group_eq_some.mp hg
    obtain ⟨hscope, -⟩ := hc'.groups _ ((Keyed.mem_update rescopeGroup_id).mpr ⟨g, hmem, rfl⟩) hm
    rw [rescopeGroup, if_pos rfl] at hscope
    exact hscope
  · intro hkeeps
    refine ⟨hc.row, hc.own, fun g' hg' hm ↦ ?_⟩
    obtain ⟨g, hg, rfl⟩ := (Keyed.mem_update rescopeGroup_id).mp hg'
    by_cases hid : g.id = groupId
    · constructor
      · rw [rescopeGroup, if_pos hid]
        exact hkeeps (hid ▸ hm)
      · intro s hs hsg
        rcases List.mem_append.mp hs with hs | hs
        · exact absurd (hsg.trans hid) (of_decide_eq_true (List.mem_filter.mp hs).2)
        · obtain ⟨c, hcg, rfl⟩ := List.mem_map.mp hs
          exact hwithin c hcg
    · obtain ⟨hscope, hrows⟩ := hc.groups g hg hm
      constructor
      · rw [rescopeGroup, if_neg hid]
        exact hscope
      · intro s hs hsg
        rcases List.mem_append.mp hs with hs | hs
        · exact hrows s (List.mem_filter.mp hs).1 hsg
        · obtain ⟨c, -, rfl⟩ := List.mem_map.mp hs
          exact absurd hsg.symm hid

theorem changeScope_confined {e : ScopeCall} (hc : Confined t callerId customerIds)
    (h : changeScope rules orgId callerId t e = some t') :
    Confined t' callerId customerIds ↔ KeepsOut orgId callerId customerIds t e := by
  unfold changeScope at h
  split at h
  · cases h
  · rename_i hcaller
    rw [not_not] at hcaller
    subst hcaller
    cases e with
    | assignUserScope actor userId accessScope ids =>
      exact iff_of_true (assignUserScope_confined hc (toOption_eq_some.mp h)) trivial
    | updateUser actor userId data =>
      obtain rfl := Option.some.inj h
      exact iff_of_true (updateUser_confined hc) trivial
    | addMember actor groupId userId => exact addMember_confined hc (toOption_eq_some.mp h)
    | removeMember actor groupId userId =>
      exact iff_of_true (removeMember_confined hc (toOption_eq_some.mp h)) trivial
    | assignGroupScope actor groupId accessScope ids =>
      exact assignGroupScope_confined hc (toOption_eq_some.mp h)

end

/-! ## Runs of calls -/

/-- In every run of calls by a user who sees some customers, they never see more
just when every call keeps them out of groups that do. -/
theorem run_within_iff {rules : TextRules} {t t' : Tenancy} {orgId callerId : Id}
    {customerIds : List Id} {es : List ScopeCall}
    (h : t.scopeOf callerId = .customers customerIds) :
    Run (changeScope rules orgId callerId)
        (fun _ _ s ↦ (s.scopeOf callerId).Within (t.scopeOf callerId)) t es t' ↔
      Run (changeScope rules orgId callerId)
        (fun s e _ ↦ KeepsOut orgId callerId customerIds s e) t es t' := by
  have h₀ : Confined t callerId customerIds := by
    rw [← within_iff_confined, h]
    exact List.Subset.refl _
  rw [h]
  constructor
  · intro hrun
    refine hrun.mono_of_invariant (I := fun s ↦ Confined s callerId customerIds) h₀ ?_
    intro s e s' hc hstep hwithin
    have hc' := within_iff_confined.mp hwithin
    exact ⟨hc', (changeScope_confined hc hstep).mp hc'⟩
  · intro hrun
    refine hrun.mono_of_invariant (I := fun s ↦ Confined s callerId customerIds) h₀ ?_
    intro s e s' hc hstep hkeeps
    have hc' := (changeScope_confined hc hstep).mpr hkeeps
    exact ⟨hc', within_iff_confined.mpr hc'⟩

/-! ## Joining a group -/

/-- Ana sees one of two customers and may manage groups; nobody is in the groups. -/
def scopedTenancy : Tenancy where
  customers := { rows := [⟨"c1", "o1"⟩, ⟨"c2", "o1"⟩] }
  users := { rows :=
    [{ id := "u1", orgId := "o1", email := "ana@x", name := "Ana", accessScope := .customers }] }
  groups := { rows :=
    [{ id := "g1", orgId := "o1" }, { id := "g2", orgId := "o1", accessScope := .all }] }
  userCustomerScopes := [⟨"u1", "c1"⟩]
  groupCustomerScopes := [⟨"g1", "c1"⟩]

def joinGroup (groupId : Id) : ScopeCall :=
  .addMember { userId := "u1", tier := .member, permissions := ["groups.manage"] } groupId "u1"

theorem scopeOf_scopedTenancy : scopedTenancy.scopeOf "u1" = .customers ["c1"] := by decide

theorem run_within_iff_joinGroup : ∃ t',
    Run (changeScope plainText "o1" "u1")
      (fun _ _ s ↦ (s.scopeOf "u1").Within (scopedTenancy.scopeOf "u1")) scopedTenancy
      [joinGroup "g1"] t' :=
  ⟨_, (run_within_iff scopeOf_scopedTenancy).mpr (.single rfl (by decide))⟩

/-- A group that sees the whole organization takes her in. -/
theorem joinGroup_widens : ∃ t',
    Run (changeScope plainText "o1" "u1") free scopedTenancy [joinGroup "g2"] t' ∧
    scopedTenancy.scopeOf "u1" = .customers ["c1"] ∧
    (∀ u ∈ scopedTenancy.users, u.role ≠ .superAdmin) ∧
    ¬ (t'.scopeOf "u1").Within (scopedTenancy.scopeOf "u1") :=
  ⟨_, .single rfl trivial, scopeOf_scopedTenancy, by decide, by decide⟩

end Shellius
