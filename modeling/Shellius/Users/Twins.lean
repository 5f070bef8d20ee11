import Shellius.Lib.Alike
import Shellius.Users.Accounts

/-!
# The same organization with another role for one user

A twin of the tables has one role more, which is in no organization of the calls, and one user
holds it instead of their own.  Whoever makes the calls with one set of permissions, the user
services cannot tell the two apart: they fail with the same error or leave tables that are twins
again.
-/

namespace Shellius

open Lib

/-- The row of a user, with another role if it is the row of `userId`. -/
def withRole (userId roleId : Id) (u : ScopedUser) : ScopedUser :=
  { u with roleId := if u.id = userId then some roleId else u.roleId }

theorem withRole_id {userId roleId : Id} (u : ScopedUser) : (withRole userId roleId u).id = u.id :=
  rfl

theorem withRole_of_ne {userId roleId : Id} {u : ScopedUser} (h : u.id ≠ userId) :
    withRole userId roleId u = u := by
  unfold withRole
  rw [if_neg h]

/-- The tables, with the role `r` added and held by the user. -/
structure Tenancy.Twin (userId : Id) (r : NamedRole) (t t' : Tenancy) : Prop where
  customers : t'.customers = t.customers
  servers : t'.servers = t.servers
  roles : t'.roles.rows = t.roles.rows ++ [r]
  users : t'.users = t.users.update (withRole userId r.id) withRole_id
  groups : t'.groups = t.groups
  groupMemberships : t'.groupMemberships = t.groupMemberships
  userCustomerScopes : t'.userCustomerScopes = t.userCustomerScopes
  groupCustomerScopes : t'.groupCustomerScopes = t.groupCustomerScopes
  accessPolicies : t'.accessPolicies = t.accessPolicies
  present : ∃ u ∈ t.users, u.id = userId
  unheld : ∀ u ∈ t.users, u.roleId ≠ some r.id

namespace Tenancy.Twin

variable {userId orgId id : Id} {r : NamedRole} {t t' : Tenancy} {rules : TextRules}
  {actor : Option Actor}

/-! ## What the services read -/

theorem mem_roles (h : Twin userId r t t') {x : NamedRole} : x ∈ t'.roles ↔ x ∈ t.roles ∨ x = r := by
  rw [Keyed.mem_def, h.roles, List.mem_append, List.mem_singleton]
  rfl

theorem find?_roles (h : Twin userId r t t') {p : NamedRole → Bool} (hr : p r = false) :
    t'.roles.rows.find? p = t.roles.rows.find? p := by
  have hnone : [r].find? p = none := by rw [List.find?_singleton, hr]; rfl
  rw [h.roles, List.find?_append, hnone, Option.or_none]

theorem getSystemRole (h : Twin userId r t t') (hr : r.orgId ≠ orgId) {tier : OrgRole} :
    getSystemRole t' orgId tier = getSystemRole t orgId tier :=
  h.find?_roles (by simp [hr])

theorem resolveRole (h : Twin userId r t t') (hr : r.orgId ≠ orgId) {ref : String} :
    resolveRole rules t' orgId ref = resolveRole rules t orgId ref := by
  unfold Shellius.resolveRole
  rw [h.find?_roles (by simp [hr]), h.find?_roles (by simp [hr])]

theorem requestedRole (h : Twin userId r t t') (hr : r.orgId ≠ orgId) {data : UserData} :
    requestedRole rules t' orgId data = requestedRole rules t orgId data := by
  unfold Shellius.requestedRole
  split
  · rfl
  · rw [h.resolveRole hr]

theorem users_rows (h : Twin userId r t t') :
    t'.users.rows = t.users.rows.map (withRole userId r.id) := congrArg Keyed.rows h.users

theorem find_users (h : Twin userId r t t') :
    t'.users.find id = (t.users.find id).map (withRole userId r.id) := by
  rw [h.users, Keyed.find_update]

theorem user (h : Twin userId r t t') :
    t'.user orgId id = (t.user orgId id).map (withRole userId r.id) := by
  rw [Tenancy.user, Tenancy.user, h.find_users]
  cases t.users.find id with
  | none => rfl
  | some u =>
    simp only [Option.map_some, Option.filter]
    change (if decide (u.orgId = orgId) = true then _ else _) = _
    split <;> rfl

theorem isSome_user (h : Twin userId r t t') : (t'.user orgId id).isSome = (t.user orgId id).isSome := by
  rw [h.user, Option.isSome_map]

theorem assignedRole (h : Twin userId r t t') {u : ScopedUser} (hu : u ∈ t.users)
    (hne : u.id ≠ userId) : t'.assignedRole (withRole userId r.id u) = t.assignedRole u := by
  rw [withRole_of_ne hne]
  unfold Tenancy.assignedRole
  cases hrole : u.roleId with
  | none => rfl
  | some k =>
    ext x
    simp only [Option.bind_some, Keyed.find_eq_some, h.mem_roles]
    constructor
    · rintro ⟨hx | rfl, hk⟩
      · exact ⟨hx, hk⟩
      · exact absurd (hrole.trans (congrArg some hk.symm)) (h.unheld u hu)
    · rintro ⟨hx, hk⟩
      exact ⟨.inl hx, hk⟩

theorem assignedRole_self (h : Twin userId r t t') {u : ScopedUser} (hid : u.id = userId) :
    t'.assignedRole (withRole userId r.id u) = some r := by
  unfold Tenancy.assignedRole withRole
  rw [if_pos hid]
  exact Keyed.find_eq_some.mpr ⟨h.mem_roles.mpr (.inr rfl), rfl⟩

theorem activeSuperAdminCount (h : Twin userId r t t') :
    activeSuperAdminCount t' orgId id = activeSuperAdminCount t orgId id := by
  unfold Shellius.activeSuperAdminCount
  rw [h.users, Keyed.update, List.filter_map, List.length_map]
  rfl

theorem superAdminCount (h : Twin userId r t t') :
    superAdminCount t' orgId = superAdminCount t orgId := by
  unfold Shellius.superAdminCount
  rw [h.users, Keyed.update, List.filter_map, List.length_map]
  rfl

theorem emailUnique (h : Twin userId r t t') {email : String} {exceptId : Option Id} :
    emailUnique t' orgId email exceptId = emailUnique t orgId email exceptId := by
  unfold Shellius.emailUnique
  rw [h.users, Keyed.update, List.all_map]
  rfl

theorem cycleFrom (h : Twin userId r t t') (n : Nat) (seen : List Id) (current : Option Id) :
    cycleFrom t' orgId id n seen current = cycleFrom t orgId id n seen current := by
  induction n generalizing seen current with
  | zero => rfl
  | succ n ih =>
    cases current with
    | none => rfl
    | some current =>
      simp only [Shellius.cycleFrom]
      split
      · rfl
      · split
        · rfl
        · rw [h.user]
          cases t.user orgId current with
          | none => rfl
          | some m => exact ih _ _

theorem wouldCreateCycle (h : Twin userId r t t') {managerId : Id} :
    wouldCreateCycle t' orgId id managerId = wouldCreateCycle t orgId id managerId := by
  have hlength : t'.users.rows.length = t.users.rows.length := by
    rw [h.users, Keyed.update, List.length_map]
  unfold Shellius.wouldCreateCycle
  rw [hlength, h.cycleFrom]

theorem validateScopeGrant (h : Twin userId r t t') {callerScope : Scope}
    {accessScope : AccessScope} {customerIds : List Id} :
    validateScopeGrant t' orgId actor callerScope accessScope customerIds =
      validateScopeGrant t orgId actor callerScope accessScope customerIds := by
  unfold Shellius.validateScopeGrant checkGrant grantableCustomers
  rw [h.customers]

theorem validateGroupIds (h : Twin userId r t t') {groupIds : List Id} :
    validateGroupIds t' orgId actor groupIds = validateGroupIds t orgId actor groupIds := by
  unfold Shellius.validateGroupIds
  rw [h.groups]

theorem resolveScope (h : Twin userId r t t') (u : ScopedUser) :
    t'.resolveScope (withRole userId r.id u) = t.resolveScope u := by
  unfold Tenancy.resolveScope groupsOf
  rw [h.groups, h.groupMemberships, h.userCustomerScopes, h.groupCustomerScopes]
  rfl

/-! ## What the services write -/

theorem ne_of_mem_roles (h : Twin userId r t t') {x : NamedRole} (hx : x ∈ t.roles) :
    x.id ≠ r.id := by
  have hnodup := t'.roles.nodup
  rw [h.roles, List.map_append, List.nodup_append] at hnodup
  exact hnodup.2.2 x.id (List.mem_map_of_mem hx) r.id (by simp)

theorem update_users (h : Twin userId r t t') {f : ScopedUser → ScopedUser}
    (hf : ∀ u, (f u).id = u.id)
    (hcomm : ∀ u ∈ t.users, f (withRole userId r.id u) = withRole userId r.id (f u))
    (hroles : ∀ u ∈ t.users, (f u).roleId ≠ some r.id) :
    Twin userId r { t with users := t.users.update f hf }
      { t' with users := t'.users.update f hf } where
  customers := h.customers
  servers := h.servers
  roles := h.roles
  users := by
    apply Keyed.ext_rows
    simp only [Keyed.update, h.users_rows, List.map_map]
    exact List.map_congr_left fun u hu ↦ hcomm u hu
  groups := h.groups
  groupMemberships := h.groupMemberships
  userCustomerScopes := h.userCustomerScopes
  groupCustomerScopes := h.groupCustomerScopes
  accessPolicies := h.accessPolicies
  present := by
    obtain ⟨u, hu, hid⟩ := h.present
    exact ⟨f u, (Keyed.mem_update hf).mpr ⟨u, hu, rfl⟩, (hf u).trans hid⟩
  unheld := by
    intro v hv
    obtain ⟨u, hu, rfl⟩ := (Keyed.mem_update hf).mp hv
    exact hroles u hu

theorem insert_users (h : Twin userId r t t') {u : ScopedUser} (hu : ∀ v ∈ t.users, v.id ≠ u.id)
    (hu' : ∀ v ∈ t'.users, v.id ≠ u.id) (hrole : u.roleId ≠ some r.id) :
    Twin userId r { t with users := t.users.insert u hu }
      { t' with users := t'.users.insert u hu' } where
  customers := h.customers
  servers := h.servers
  roles := h.roles
  users := by
    obtain ⟨v, hv, hid⟩ := h.present
    have hne : u.id ≠ userId := fun he ↦ hu v hv (hid.trans he.symm)
    apply Keyed.ext_rows
    simp only [Keyed.update, Keyed.insert, h.users_rows, List.map_append, List.map_cons,
      List.map_nil, withRole_of_ne hne]
  groups := h.groups
  groupMemberships := h.groupMemberships
  userCustomerScopes := h.userCustomerScopes
  groupCustomerScopes := h.groupCustomerScopes
  accessPolicies := h.accessPolicies
  present := by
    obtain ⟨v, hv, hid⟩ := h.present
    exact ⟨v, (Keyed.mem_insert hu).mpr (.inl hv), hid⟩
  unheld := by
    intro v hv
    obtain hv | rfl := (Keyed.mem_insert hu).mp hv
    · exact h.unheld v hv
    · exact hrole

theorem with_relations (h : Twin userId r t t') (groupMemberships : List GroupMembership)
    (userCustomerScopes : List UserCustomerScope) :
    Twin userId r { t with groupMemberships, userCustomerScopes }
      { t' with groupMemberships, userCustomerScopes } :=
  { h with groupMemberships := rfl, userCustomerScopes := rfl }

/-! ## The services -/

theorem createUser (h : Twin userId r t t') (hr : r.orgId ≠ orgId) (data : UserData)
    (callerScope : Scope) :
    Alike (Twin userId r) (createUser rules t orgId data actor callerScope id)
      (createUser rules t' orgId data actor callerScope id) := by
  have hroleFor : roleForNewUser rules t' orgId actor data =
      roleForNewUser rules t orgId actor data := by
    unfold roleForNewUser
    rw [h.getSystemRole hr, h.requestedRole hr]
  have hmanager : checkManager t' orgId data.managerId.join =
      checkManager t orgId data.managerId.join := by
    unfold checkManager
    split
    · rfl
    · rw [h.isSome_user]
  have hscope (role : NamedRole) : scopeForNewUser t' orgId actor callerScope role data =
      scopeForNewUser t orgId actor callerScope role data := by
    unfold scopeForNewUser
    split
    · rfl
    · rw [h.validateScopeGrant]
  have hgroups : groupsForNewUser t' orgId actor data = groupsForNewUser t orgId actor data := by
    unfold groupsForNewUser
    split
    · rfl
    · exact h.validateGroupIds
  unfold Shellius.createUser
  simp only [hroleFor, hmanager, hscope, hgroups, h.emailUnique, h.groupMemberships,
    h.userCustomerScopes]
  refine Alike.bind_same fun email _ ↦ Alike.bind_same fun name _ ↦ Alike.bind_same fun role hrole ↦
    Alike.bind_same fun _ _ ↦ Alike.bind_same fun customerIds _ ↦ Alike.bind_same fun groups _ ↦
    Alike.bind_same fun _ _ ↦ ?_
  generalize hrow : ({ id, orgId, email, name
                       role := role.baseRole
                       roleId := some role.id
                       status := data.status.getD
                         (if (truthy data.password).isSome then .active else .invited)
                       managerId := truthy data.managerId.join
                       accessScope := data.accessScope.getD .all } : ScopedUser) = u
  have hroleId : u.roleId ≠ some r.id := by
    rw [← hrow]
    exact fun he ↦ h.ne_of_mem_roles (roleForNewUser_eq_ok hrole).1 (Option.some.inj he)
  have hfree : (∀ v ∈ t'.users, v.id ≠ u.id) ↔ ∀ v ∈ t.users, v.id ≠ u.id := by
    rw [h.users]
    simp only [Keyed.mem_update, forall_exists_index, and_imp, forall_apply_eq_imp_iff₂, withRole_id]
  by_cases hu : ∀ v ∈ t.users, v.id ≠ u.id
  · rw [Keyed.insert?_eq_some.mpr ⟨hu, rfl⟩, Keyed.insert?_eq_some.mpr ⟨hfree.mpr hu, rfl⟩]
    exact .ok ((h.insert_users hu (hfree.mpr hu) hroleId).with_relations _ _)
  · have hnone : t.users.insert? u = none := by
      rw [Keyed.insert?_eq_none]
      by_contra hno
      exact hu fun v hv he ↦ hno ⟨v, hv, he⟩
    have hnone' : t'.users.insert? u = none := by
      rw [Keyed.insert?_eq_none]
      by_contra hno
      exact hu (hfree.mp fun v hv he ↦ hno ⟨v, hv, he⟩)
    rw [hnone, hnone']
    exact .error _

theorem assertCanManageUser (h : Twin userId r t t') {a : Actor} (ha : a.userId = userId)
    {u : ScopedUser} (hu : u ∈ t.users) {what : String} :
    assertCanManageUser (some a) (withRole userId r.id u) (t'.assignedRole (withRole userId r.id u))
        what =
      assertCanManageUser (some a) u (t.assignedRole u) what := by
  by_cases hid : u.id = userId
  · simp only [Shellius.assertCanManageUser, withRole_id, hid, ha, if_true]
  · rw [h.assignedRole hu hid, withRole_of_ne hid]

theorem checkRole (h : Twin userId r t t') (hr : r.orgId ≠ orgId) {u : ScopedUser} {data : UserData}
    (hu : u.id ≠ userId ∨ Shellius.requestedRole rules t orgId data = .ok none) :
    checkRole rules t' orgId actor (withRole userId r.id u) data =
      checkRole rules t orgId actor u data := by
  unfold Shellius.checkRole
  rw [h.requestedRole hr]
  simp only [h.activeSuperAdminCount]
  obtain hu | hu := hu
  · rw [withRole_of_ne hu]
  · rw [hu]
    rfl

theorem checkStatus (h : Twin userId r t t') {u : ScopedUser} {asked : Option UserStatus} :
    checkStatus t' orgId actor (withRole userId r.id u) asked = checkStatus t orgId actor u asked := by
  unfold Shellius.checkStatus
  simp only [h.activeSuperAdminCount]
  rfl

theorem checkNewManager (h : Twin userId r t t') {self : Bool} {u : ScopedUser}
    {asked : Option (Option Id)} :
    checkNewManager t' orgId actor self (withRole userId r.id u) asked =
      checkNewManager t orgId actor self u asked := by
  unfold Shellius.checkNewManager
  simp only [h.isSome_user, h.wouldCreateCycle]
  rfl

theorem checkUpdate (h : Twin userId r t t') (hr : r.orgId ≠ orgId) {a : Actor}
    (ha : a.userId = userId) (targetId : Id) (data : UserData) :
    checkUpdate rules t' orgId targetId data (some a) =
      checkUpdate rules t orgId targetId data (some a) := by
  unfold Shellius.checkUpdate
  rw [h.user]
  cases hu : t.user orgId targetId with
  | none => rfl
  | some u =>
    obtain ⟨hmem, hid, -⟩ := Tenancy.user_eq_some.mp hu
    simp only [Option.map_some, demand, ok_bind, h.assertCanManageUser ha hmem, h.checkStatus,
      h.checkNewManager]
    by_cases hbad : ¬ isSelf (some a) targetId ∨ (data.fields.filter fun k ↦ k ≠ "name") = []
    · have hrole : u.id ≠ userId ∨ Shellius.requestedRole rules t orgId data = .ok none := by
        by_cases hself : u.id = userId
        · right
          have hisSelf : isSelf (some a) targetId = true := by
            simp only [isSelf, Option.any_some, decide_eq_true_eq]
            exact ha.trans (hself.symm.trans hid)
          obtain ⟨hroleId, hrole, -⟩ := data.only_name (hbad.resolve_left (not_not.mpr hisSelf))
          rw [Shellius.requestedRole, hroleId, hrole]
          rfl
        · exact .inl hself
      simp only [h.checkRole hr hrole]
      rfl
    · simp only [require, if_neg hbad]
      rfl

theorem editUser_withRole {targetId : Id} {edit : UserEdit} (u : ScopedUser)
    (hrole : targetId = userId → edit.role = none) :
    editUser targetId edit (withRole userId r.id u) =
      withRole userId r.id (editUser targetId edit u) := by
  by_cases hid : u.id = userId
  · by_cases htarget : u.id = targetId
    · have hnone := hrole (htarget.symm.trans hid)
      unfold editUser withRole
      simp only [htarget, if_true, UserEdit.apply, hnone, Option.map_none, Option.none_or]
    · unfold editUser
      rw [withRole_id, if_neg htarget, if_neg htarget]
  · rw [withRole_of_ne hid, withRole_of_ne (by rwa [editUser_id])]

theorem setGroups (h : Twin userId r t t') (targetId : Id) (groups : List ScopedGroup) :
    Twin userId r (setGroups t orgId targetId groups) (setGroups t' orgId targetId groups) := by
  have hgroup (id : Id) : t'.group orgId id = t.group orgId id := by
    unfold Tenancy.group
    rw [h.groups]
  unfold Shellius.setGroups
  simp only [hgroup, h.groupMemberships]
  exact { h with groupMemberships := rfl }

theorem updateUser (h : Twin userId r t t') (hr : r.orgId ≠ orgId) {a : Actor}
    (ha : a.userId = userId) (targetId : Id) (data : UserData) :
    (updateUser rules t' orgId targetId data (some a)).2 =
        (updateUser rules t orgId targetId data (some a)).2 ∧
      Twin userId r (updateUser rules t orgId targetId data (some a)).1
        (updateUser rules t' orgId targetId data (some a)).1 := by
  unfold Shellius.updateUser
  rw [h.checkUpdate hr ha]
  cases hcheck : Shellius.checkUpdate rules t orgId targetId data (some a) with
  | error e => exact ⟨rfl, h⟩
  | ok edit =>
    obtain ⟨existing, hexisting, hself, hedit, -⟩ := checkUpdate_eq_ok hcheck
    have hgroups : Alike (Twin userId r)
        (applyGroupMembership t orgId targetId data.groupIds (some a))
        (applyGroupMembership t' orgId targetId data.groupIds (some a)) := by
      unfold applyGroupMembership
      split
      · exact .ok h
      · rw [h.validateGroupIds]
        exact (Alike.of_eq rfl).map fun groups _ he ↦ he ▸ h.setGroups targetId groups
    generalize hx : applyGroupMembership t orgId targetId data.groupIds (some a) = x at hgroups
    generalize hy : applyGroupMembership t' orgId targetId data.groupIds (some a) = y at hgroups
    cases hgroups with
    | error e => exact ⟨rfl, h⟩
    | @ok t₁ t₁' h₁ =>
      have hemail : (edit.email.all fun email ↦
          Shellius.emailUnique t' orgId email (some targetId)) =
          edit.email.all fun email ↦ Shellius.emailUnique t orgId email (some targetId) := by
        simp only [h.emailUnique]
      dsimp only
      rw [hemail]
      split
      · refine ⟨rfl, h₁.update_users editUser_id (fun u _ ↦ editUser_withRole u ?_) ?_⟩
        · intro he
          refine (hself ?_).2
          simp only [isSelf, Option.any_some, decide_eq_true_eq]
          exact ha.trans he.symm
        · intro u hu
          unfold editUser
          split
          · cases hrole : edit.role with
            | none =>
              simp only [UserEdit.apply, hrole, Option.map_none, Option.none_or]
              exact h₁.unheld u hu
            | some role =>
              simp only [UserEdit.apply, hrole, Option.map_some, Option.some_or]
              exact fun he ↦ h.ne_of_mem_roles (hedit role hrole).1 (Option.some.inj he)
          · exact h₁.unheld u hu
      · exact ⟨rfl, h₁⟩

theorem assignUserScope (h : Twin userId r t t') (targetId : Id) (accessScope : AccessScope)
    (customerIds : List Id) (callerScope : Scope) :
    Alike (Twin userId r) (assignUserScope t orgId targetId accessScope customerIds actor callerScope)
      (assignUserScope t' orgId targetId accessScope customerIds actor callerScope) := by
  unfold Shellius.assignUserScope
  rw [h.user, h.validateScopeGrant, h.userCustomerScopes]
  refine Alike.bind_same fun _ _ ↦ Alike.bind Alike.demand ?_
  rintro u _ ⟨-, rfl⟩
  refine Alike.bind_same fun _ _ ↦ Alike.bind_same fun ids _ ↦ .pure ?_
  have hrows := h.update_users (f := rescopeUser targetId accessScope) rescopeUser_id
    (fun _ _ ↦ rfl) fun u hu ↦ h.unheld u hu
  exact { hrows with userCustomerScopes := rfl }

theorem softDeleteSelf (h : Twin userId r t t') (targetId : Id) (now : Millis) :
    Alike (Twin userId r) (softDeleteSelf t orgId targetId now)
      (softDeleteSelf t' orgId targetId now) := by
  unfold Shellius.softDeleteSelf assertNotOnlySuperAdmin
  rw [h.user, h.superAdminCount]
  refine Alike.bind Alike.demand ?_
  rintro u _ ⟨-, rfl⟩
  refine Alike.bind_same fun _ _ ↦ Alike.bind_same fun _ _ ↦ .pure ?_
  exact h.update_users softDeleted_id (fun _ _ ↦ rfl) fun u hu ↦ h.unheld u hu

end Tenancy.Twin

end Shellius
