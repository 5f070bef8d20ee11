import Shellius.Users.Roles

/-!
# User accounts

`userService`: how user rows are created, edited, scoped and deleted.  A trusted
internal caller passes no actor and skips the permission checks.

Not one transaction is `updateUser`: it commits the groups of the user before it
writes the row, which can still fail on the unique e-mail.  So it returns the
tables it leaves beside its answer.
-/

namespace Shellius

open Lib

/-- The body of `createUser` and `updateUser`; `none` is `undefined`. -/
structure UserData where
  email : Option String := none
  name : Option String := none
  password : Option String := none
  roleId : Option String := none
  role : Option String := none
  status : Option UserStatus := none
  managerId : Option (Option Id) := none
  accessScope : Option AccessScope := none
  customerIds : List Id := []
  groupIds : Option (List Id) := none

/-- The fields that `updateUser` finds in its body, in the order of the schema. -/
def UserData.fields (data : UserData) : List String :=
  (if data.email.isSome then ["email"] else []) ++ (if data.name.isSome then ["name"] else []) ++
    (if data.password.isSome then ["password"] else []) ++
    (if data.roleId.isSome then ["roleId"] else []) ++ (if data.role.isSome then ["role"] else []) ++
    (if data.status.isSome then ["status"] else []) ++
    (if data.managerId.isSome then ["managerId"] else []) ++
    (if data.groupIds.isSome then ["groupIds"] else [])

theorem UserData.only_name (data : UserData) (h : (data.fields.filter fun k ↦ k ≠ "name") = []) :
    data.roleId = none ∧ data.role = none ∧ data.groupIds = none := by
  have habsent : ∀ k ∈ data.fields, k = "name" := by simpa using List.filter_eq_nil_iff.mp h
  simp only [UserData.fields, List.mem_append] at habsent
  refine ⟨?_, ?_, ?_⟩
  · by_contra hne
    exact absurd (habsent "roleId" (by simp [Option.isSome_iff_ne_none, hne])) (by decide)
  · by_contra hne
    exact absurd (habsent "role" (by simp [Option.isSome_iff_ne_none, hne])) (by decide)
  · by_contra hne
    exact absurd (habsent "groupIds" (by simp [Option.isSome_iff_ne_none, hne])) (by decide)

/-! ## Checks -/

def requestedRole (rules : TextRules) (t : Tenancy) (orgId : Id) (data : UserData) :
    Except ApiError (Option NamedRole) :=
  match (truthy data.roleId).or (truthy data.role) with
  | none => .ok none
  | some ref => (demand (resolveRole rules t orgId ref) ⟨400, "Unknown role", none⟩).map some

/-- `assertCanManageUser`, with the role row of the target, if it has one. -/
def assertCanManageUser (actor : Option Actor) (target : ScopedUser) (role : Option NamedRole)
    (what : String) : Except ApiError Unit :=
  match actor with
  | none => .ok ⟨⟩
  | some a =>
    if target.id = a.userId then .ok ⟨⟩
    else assertCanActOnRole a ((role.map NamedRole.toRole).getD
      { id := "", orgId := target.orgId, key := "", baseRole := target.role }) what

/-- The users `activeSuperAdminCount` counts. -/
def isActiveSuperAdmin (orgId : Id) (u : ScopedUser) : Bool :=
  u.orgId = orgId ∧ u.role = .superAdmin ∧ u.status = .active ∧ u.deletedAt = none

def activeSuperAdminCount (t : Tenancy) (orgId excludeUserId : Id) : Nat :=
  (t.users.rows.filter fun u ↦ isActiveSuperAdmin orgId u ∧ u.id ≠ excludeUserId).length

theorem activeSuperAdminCount_ne_zero {t : Tenancy} {orgId excludeUserId : Id} :
    activeSuperAdminCount t orgId excludeUserId ≠ 0 ↔
      ∃ u ∈ t.users, isActiveSuperAdmin orgId u = true ∧ u.id ≠ excludeUserId := by
  unfold activeSuperAdminCount
  rw [Nat.ne_zero_iff_zero_lt, List.length_pos_iff_exists_mem]
  simp only [List.mem_filter, decide_eq_true_eq]
  rfl

/-- The count of `deleteUser` and `softDeleteSelf`. -/
def superAdminCount (t : Tenancy) (orgId : Id) : Nat :=
  (t.users.rows.filter fun u ↦
    u.orgId = orgId ∧ u.role = .superAdmin ∧ u.status ≠ .deleted).length

/-- The customers of the organization that a caller may name, among some. -/
def grantableCustomers (t : Tenancy) (orgId : Id) (callerScope : Scope) (ids : List Id) :
    List Customer :=
  t.customers.rows.filter fun c ↦ c.id ∈ ids ∧ c.orgId = orgId ∧ callerScope.admits c.id

/-- The existence check of a scope grant: every customer that is named is one the
caller may name. -/
def checkGrant (t : Tenancy) (orgId : Id) (callerScope : Scope) (accessScope : AccessScope)
    (customerIds : List Id) : Except ApiError (List Id) := do
  let ids := if accessScope = .customers then customerIds.eraseDups else []
  require ((grantableCustomers t orgId callerScope ids).length = ids.length)
    ⟨404, "One or more customers not found", none⟩
  pure ids

def validateScopeGrant (t : Tenancy) (orgId : Id) (actor : Option Actor) (callerScope : Scope)
    (accessScope : AccessScope) (customerIds : List Id) : Except ApiError (List Id) := do
  require (holds actor "users.assign_scope")
    ⟨403, "You don't have permission to assign customer scope", some "PERMISSION_DENIED"⟩
  checkGrant t orgId callerScope accessScope customerIds

def validateGroupIds (t : Tenancy) (orgId : Id) (actor : Option Actor) (groupIds : List Id) :
    Except ApiError (List ScopedGroup) := do
  require (holds actor "groups.manage")
    ⟨403, "You don't have permission to change group membership", some "PERMISSION_DENIED"⟩
  let ids := groupIds.eraseDups
  let found := t.groups.rows.filter fun g ↦ g.id ∈ ids ∧ g.orgId = orgId
  require (found.length = ids.length) ⟨404, "One or more groups not found", none⟩
  pure found

/-- The transaction of `applyGroupMembership`. -/
def setGroups (t : Tenancy) (orgId userId : Id) (groups : List ScopedGroup) : Tenancy :=
  let inOrg (m : GroupMembership) : Bool := (t.group orgId m.groupId).isSome
  { t with
    groupMemberships := (t.groupMemberships.filter fun m ↦ !(m.userId = userId && inOrg m)) ++
      groups.map fun g ↦ ⟨g.id, userId⟩ }

/-- `applyGroupMembership`, where the body has `groupIds`. -/
def applyGroupMembership (t : Tenancy) (orgId userId : Id) (groupIds : Option (List Id))
    (actor : Option Actor) : Except ApiError Tenancy :=
  match groupIds with
  | none => .ok t
  | some ids => (validateGroupIds t orgId actor ids).map (setGroups t orgId userId)

/-- No other user of the organization has the e-mail: `@@unique([orgId, email])`. -/
def emailUnique (t : Tenancy) (orgId : Id) (email : String) (exceptId : Option Id) : Bool :=
  t.users.rows.all fun u ↦ !(u.orgId = orgId && u.email = email && some u.id ≠ exceptId)

/-! ## Creating users -/

/-- The role a new user gets: the one asked for, if the actor may assign it, or
the built-in member role. -/
def roleForNewUser (rules : TextRules) (t : Tenancy) (orgId : Id) (actor : Option Actor)
    (data : UserData) : Except ApiError NamedRole := do
  let member ← demand (getSystemRole t orgId .member) ⟨500, "Internal Server Error", none⟩
  let asked ← requestedRole rules t orgId data
  let role := asked.getD member
  match actor with
  | none => pure role
  | some a =>
    if role.id = member.id then pure role
    else do
      require (holds actor "users.assign_role")
        ⟨403, "You don't have permission to assign roles", some "PERMISSION_DENIED"⟩
      assertCanActOnRole a role.toRole "assign this role"
      pure role

def checkManager (t : Tenancy) (orgId : Id) (managerId : Option Id) : Except ApiError Unit :=
  match truthy managerId with
  | none => .ok ⟨⟩
  | some m => require ((t.user orgId m).isSome) ⟨400, "Manager not found in organization", none⟩

/-- The customers granted at creation. -/
def scopeForNewUser (t : Tenancy) (orgId : Id) (actor : Option Actor) (callerScope : Scope)
    (role : NamedRole) (data : UserData) : Except ApiError (List Id) :=
  match data.accessScope with
  | none => .ok []
  | some accessScope => do
      require (¬ (role.baseRole = .superAdmin ∧ accessScope = .customers))
        ⟨400, "Super admins are never scoped — they always see the whole organization", none⟩
      validateScopeGrant t orgId actor callerScope accessScope data.customerIds

/-- The groups joined at creation. -/
def groupsForNewUser (t : Tenancy) (orgId : Id) (actor : Option Actor) (data : UserData) :
    Except ApiError (List ScopedGroup) :=
  match data.groupIds with
  | none => .ok []
  | some ids => validateGroupIds t orgId actor ids

/-- `createUser`, with the id of the new row. -/
def createUser (rules : TextRules) (t : Tenancy) (orgId : Id) (data : UserData)
    (actor : Option Actor) (callerScope : Scope) (id : Id) : Except ApiError Tenancy := do
  let email ← demand (truthy data.email) ⟨400, "email and name are required", none⟩
  let name ← demand (truthy data.name) ⟨400, "email and name are required", none⟩
  let role ← roleForNewUser rules t orgId actor data
  checkManager t orgId data.managerId.join
  let customerIds ← scopeForNewUser t orgId actor callerScope role data
  let groups ← groupsForNewUser t orgId actor data
  require (emailUnique t orgId email none) ⟨409, "Email already exists in organization", none⟩
  let users ← demand (t.users.insert?
    { id, orgId, email, name
      role := role.baseRole
      roleId := some role.id
      status := data.status.getD (if (truthy data.password).isSome then .active else .invited)
      managerId := truthy data.managerId.join
      accessScope := data.accessScope.getD .all })
    ⟨409, "Email already exists in organization", none⟩
  pure { t with
    users
    userCustomerScopes := t.userCustomerScopes ++ customerIds.map fun c ↦ ⟨id, c⟩
    groupMemberships := t.groupMemberships ++ groups.map fun g ↦ ⟨g.id, id⟩ }

/-! ## Editing users -/

/-- The loop of `wouldCreateCycle`, up the chain of managers. -/
def cycleFrom (t : Tenancy) (orgId userId : Id) : Nat → List Id → Option Id → Bool
  | 0, _, _ => false
  | _ + 1, _, none => false
  | n + 1, seen, some current =>
    if current = userId then true
    else if current ∈ seen then false
    else match t.user orgId current with
      | none => false
      | some m => cycleFrom t orgId userId n (current :: seen) m.managerId

/-- `wouldCreateCycle`: no chain is longer than the table. -/
def wouldCreateCycle (t : Tenancy) (orgId userId newManagerId : Id) : Bool :=
  cycleFrom t orgId userId (t.users.rows.length + 1) [] (some newManagerId)

/-- The columns an update writes. -/
structure UserEdit where
  email : Option String := none
  name : Option String := none
  role : Option NamedRole := none
  status : Option UserStatus := none
  managerId : Option (Option Id) := none

/-- The row after an update. -/
def UserEdit.apply (edit : UserEdit) (u : ScopedUser) : ScopedUser :=
  { u with
    email := edit.email.getD u.email
    name := edit.name.getD u.name
    role := (edit.role.map fun r ↦ r.baseRole).getD u.role
    roleId := (edit.role.map fun r ↦ r.id).or u.roleId
    status := edit.status.getD u.status
    managerId := edit.managerId.getD u.managerId }

def need (actor : Option Actor) (perm field : String) : Except ApiError Unit :=
  require (holds actor perm)
    ⟨403, "You don't have permission to change '" ++ field ++ "'", some "PERMISSION_DENIED"⟩

/-- The new value of a text column, if it is a new one. -/
def checkText (actor : Option Actor) (isSelf : Bool) (field current : String) :
    Option String → Except ApiError (Option String)
  | none => .ok none
  | some value =>
    if value = current then .ok none
    else if isSelf then .ok (some value)
    else do
      need actor "users.update" field
      pure (some value)

/-- The new role, if it is a new one. -/
def checkRole (rules : TextRules) (t : Tenancy) (orgId : Id) (actor : Option Actor)
    (existing : ScopedUser) (data : UserData) : Except ApiError (Option NamedRole) := do
  let newRole ← requestedRole rules t orgId data
  match newRole with
  | none => pure none
  | some role =>
    if some role.id = existing.roleId then pure none
    else do
      need actor "users.assign_role" "role"
      require (actor.all fun a ↦ canActOnRole a role.toRole)
        ⟨403, "You can't assign this role: it has permissions you don't hold",
          some "ROLE_ESCALATION"⟩
      require (¬ (existing.role = .superAdmin ∧ role.baseRole ≠ .superAdmin ∧
          existing.status = .active) ∨ activeSuperAdminCount t orgId existing.id ≠ 0)
        ⟨409, "This is the only active super admin — make someone else super admin first", none⟩
      pure (some role)

/-- The new status, if it is a new one. -/
def checkStatus (t : Tenancy) (orgId : Id) (actor : Option Actor) (existing : ScopedUser) :
    Option UserStatus → Except ApiError (Option UserStatus)
  | none => .ok none
  | some status =>
    if status = existing.status then .ok none
    else do
      need actor "users.suspend" "status"
      require (¬ (existing.role = .superAdmin ∧ existing.status = .active) ∨
          activeSuperAdminCount t orgId existing.id ≠ 0)
        ⟨409, "This is the only active super admin — it cannot be suspended", none⟩
      pure (some status)

def checkNewManager (t : Tenancy) (orgId : Id) (actor : Option Actor) (isSelf : Bool)
    (existing : ScopedUser) : Option (Option Id) → Except ApiError (Option (Option Id))
  | none => .ok none
  | some managerId => do
      match managerId with
      | none => pure ()
      | some m =>
        require (m ≠ existing.id) ⟨400, "User cannot be their own manager", none⟩
        require ((t.user orgId m).isSome) ⟨400, "Manager not found in organization", none⟩
        require (¬ wouldCreateCycle t orgId existing.id m)
          ⟨400, "Circular manager reference detected", none⟩
      if managerId = existing.managerId then pure none
      else if isSelf then pure (some managerId)
      else do
        need actor "users.update" "managerId"
        pure (some managerId)

/-- Whether the caller edits their own row. -/
def isSelf (actor : Option Actor) (userId : Id) : Bool := actor.any fun a ↦ a.userId = userId

/-- Everything `updateUser` checks before it writes. -/
def checkUpdate (rules : TextRules) (t : Tenancy) (orgId userId : Id) (data : UserData)
    (actor : Option Actor) : Except ApiError UserEdit := do
  let existing ← demand (t.user orgId userId) ⟨404, "User not found", none⟩
  let self := isSelf actor userId
  let bad := data.fields.filter fun k ↦ k ≠ "name"
  require (¬ self ∨ bad = [])
    ⟨403, "You cannot change '" ++ bad.headD "" ++ "' on your own account here", none⟩
  assertCanManageUser actor existing (t.assignedRole existing) "edit this user"
  require (data.password = none ∨ actor = none)
    ⟨400, "Passwords can't be set for other users — send a password reset link instead", none⟩
  let name ← checkText actor self "name" existing.name data.name
  let email ← checkText actor self "email" existing.email data.email
  let role ← checkRole rules t orgId actor existing data
  let status ← checkStatus t orgId actor existing data.status
  let managerId ← checkNewManager t orgId actor self existing data.managerId
  pure { email, name, role, status, managerId }

/-- The rows of a table of users after an update of one. -/
def editUser (id : Id) (edit : UserEdit) (u : ScopedUser) : ScopedUser :=
  if u.id = id then edit.apply u else u

theorem editUser_id {id : Id} {edit : UserEdit} (u : ScopedUser) :
    (editUser id edit u).id = u.id := by
  unfold editUser
  split <;> rfl

def updateUser (rules : TextRules) (t : Tenancy) (orgId userId : Id) (data : UserData)
    (actor : Option Actor) : Tenancy × Except ApiError Unit :=
  match checkUpdate rules t orgId userId data actor with
  | .error e => (t, .error e)
  | .ok edit =>
    match applyGroupMembership t orgId userId data.groupIds actor with
    | .error e => (t, .error e)
    | .ok t' =>
      if edit.email.all fun email ↦ emailUnique t orgId email (some userId) then
        ({ t' with users := t'.users.update (editUser userId edit) editUser_id }, .ok ⟨⟩)
      else (t', .error duplicateRow)

/-! ## Scope -/

def rescopeUser (id : Id) (accessScope : AccessScope) (u : ScopedUser) : ScopedUser :=
  { u with accessScope := if u.id = id then accessScope else u.accessScope }

theorem rescopeUser_id {id : Id} {accessScope : AccessScope} (u : ScopedUser) :
    (rescopeUser id accessScope u).id = u.id := rfl

def assignUserScope (t : Tenancy) (orgId userId : Id) (accessScope : AccessScope)
    (customerIds : List Id) (actor : Option Actor) (callerScope : Scope) :
    Except ApiError Tenancy := do
  require (¬ isSelf actor userId) ⟨403, "You cannot change your own customer scope", none⟩
  let target ← demand (t.user orgId userId) ⟨404, "User not found", none⟩
  require (target.role ≠ .superAdmin)
    ⟨400, "Super admins are never scoped — they always see the whole organization", none⟩
  let ids ← validateScopeGrant t orgId actor callerScope accessScope customerIds
  pure { t with
    users := t.users.update (rescopeUser userId accessScope) rescopeUser_id
    userCustomerScopes := (t.userCustomerScopes.filter fun s ↦ s.userId ≠ userId) ++
      ids.map fun c ↦ ⟨userId, c⟩ }

/-! ## Deleting users -/

/-- A row once the reports of a deleted user were given to another manager, if
there is one; `User.manager` has `onDelete: SetNull`. -/
def dropManager (orgId userId : Id) (reassignTo : Option Id) (u : ScopedUser) : ScopedUser :=
  { u with
    managerId := if u.managerId = some userId then (if u.orgId = orgId then reassignTo else none)
      else u.managerId }

theorem dropManager_id {orgId userId : Id} {reassignTo : Option Id} (u : ScopedUser) :
    (dropManager orgId userId reassignTo u).id = u.id := rfl

/-- The subjects that `cleanupPolicySubjects` leaves a policy. -/
def cleanupPolicySubjects (subjectType : SubjectType) (subjectId : String) (p : AccessPolicy) :
    AccessPolicy :=
  keepSubjects (fun s ↦ !(s.subjectType = subjectType && s.subjectId = subjectId)) p

theorem cleanupPolicySubjects_id {subjectType : SubjectType} {subjectId : String}
    (p : AccessPolicy) : (cleanupPolicySubjects subjectType subjectId p).id = p.id := rfl

/-- The transaction of `deleteUser`, with what the foreign keys do. -/
def removeUser (t : Tenancy) (orgId userId : Id) (reassignTo : Option Id) : Tenancy :=
  { t with
    users := (t.users.filter fun u ↦ u.id ≠ userId).update (dropManager orgId userId reassignTo)
      dropManager_id
    groupMemberships := t.groupMemberships.filter fun m ↦ m.userId ≠ userId
    userCustomerScopes := t.userCustomerScopes.filter fun s ↦ s.userId ≠ userId
    accessPolicies :=
      t.accessPolicies.update (cleanupPolicySubjects .user userId) cleanupPolicySubjects_id }

/-- The guard of `deleteUser` and `softDeleteSelf`. -/
def assertNotOnlySuperAdmin (t : Tenancy) (orgId : Id) (existing : ScopedUser) :
    Except ApiError Unit :=
  require (existing.role ≠ .superAdmin ∨ 1 < superAdminCount t orgId)
    ⟨409, "Cannot delete the only super_admin in the organization", none⟩

/-- The manager that takes over the reports of a deleted user. -/
def checkReassignTo (t : Tenancy) (orgId userId : Id) (reassignTo : Option Id) :
    Except ApiError Unit :=
  match reassignTo with
  | none => .ok ⟨⟩
  | some r => do
      require (r ≠ userId) ⟨400, "Cannot reassign reports to the user being deleted", none⟩
      require ((t.user orgId r).any fun u ↦ u.status ≠ .deleted)
        ⟨400, "Reassignment target manager not found", none⟩

def deleteUser (t : Tenancy) (orgId userId : Id) (reassignReportsTo : Option Id)
    (actor : Option Actor) : Except ApiError Tenancy := do
  let existing ← demand (t.user orgId userId) ⟨404, "User not found", none⟩
  assertCanManageUser actor existing (existing.roleId.bind (t.role orgId)) "delete this user"
  assertNotOnlySuperAdmin t orgId existing
  let reassignTo := truthy reassignReportsTo
  checkReassignTo t orgId userId reassignTo
  pure (removeUser t orgId userId reassignTo)

def softDeleted (userId : Id) (now : Millis) (u : ScopedUser) : ScopedUser :=
  { u with
    status := if u.id = userId then .deleted else u.status
    deletedAt := if u.id = userId then some now else u.deletedAt }

theorem softDeleted_id {userId : Id} {now : Millis} (u : ScopedUser) :
    (softDeleted userId now u).id = u.id := rfl

def softDeleteSelf (t : Tenancy) (orgId userId : Id) (now : Millis) : Except ApiError Tenancy := do
  let user ← demand (t.user orgId userId) ⟨404, "User not found", none⟩
  require (user.status ≠ .deleted) ⟨409, "Account is already deleted", none⟩
  assertNotOnlySuperAdmin t orgId user
  pure { t with users := t.users.update (softDeleted userId now) softDeleted_id }

/-! ## What a call that went through has done -/

section

variable {rules : TextRules} {t t' : Tenancy} {orgId userId id : Id} {data : UserData}
  {actor : Option Actor} {callerScope : Scope}

theorem requestedRole_eq_ok {role : Option NamedRole}
    (h : requestedRole rules t orgId data = .ok role) : ∀ r ∈ role, r ∈ t.roles ∧ r.orgId = orgId := by
  unfold requestedRole at h
  split at h
  · obtain rfl := Except.ok.inj h
    simp
  · rename_i ref href
    cases hr : resolveRole rules t orgId ref with
    | none => simp [hr, demand, Except.map] at h
    | some r =>
      simp only [hr, demand, Except.map, Except.ok.injEq] at h
      obtain rfl := h
      rintro r' ⟨⟩
      exact resolveRole_spec hr

theorem roleForNewUser_eq_ok {role : NamedRole}
    (h : roleForNewUser rules t orgId actor data = .ok role) :
    role ∈ t.roles ∧ role.orgId = orgId ∧ ∀ a ∈ actor,
      getSystemRole t orgId .member = some role ∨ canActOnRole a role.toRole = true := by
  simp only [roleForNewUser, bind_eq_ok, demand_eq_ok] at h
  obtain ⟨member, hmember, asked, hasked, h⟩ := h
  have hrole : asked.getD member ∈ t.roles ∧ (asked.getD member).orgId = orgId := by
    cases asked with
    | none =>
      obtain ⟨hmem, horg, -⟩ := getSystemRole_spec hmember
      exact ⟨hmem, horg⟩
    | some r => exact requestedRole_eq_ok hasked r rfl
  cases actor with
  | none =>
    obtain rfl := pure_eq_ok.mp h
    exact ⟨hrole.1, hrole.2, by simp⟩
  | some a =>
    dsimp only at h
    split at h
    · rename_i hid
      obtain rfl := pure_eq_ok.mp h
      obtain ⟨hmem, -⟩ := getSystemRole_spec hmember
      refine ⟨hrole.1, hrole.2, ?_⟩
      rintro a' ⟨⟩
      rw [Keyed.ext hrole.1 hmem hid]
      exact .inl hmember
    · simp only [assertCanActOnRole, bind_eq_ok, require_eq_ok, pure_eq_ok] at h
      obtain ⟨-, -, -, hact, rfl⟩ := h
      refine ⟨hrole.1, hrole.2, ?_⟩
      rintro a' ⟨⟩
      exact .inr hact

/-- A new user has the role `roleForNewUser` chose; nothing else in the tables of
users and roles changes. -/
theorem createUser_eq_ok (h : createUser rules t orgId data actor callerScope id = .ok t') :
    ∃ (role : NamedRole) (u : ScopedUser) (hu : ∀ u' ∈ t.users, u'.id ≠ u.id)
      (customerIds : List Id) (groups : List ScopedGroup),
      roleForNewUser rules t orgId actor data = .ok role ∧
      u.id = id ∧ u.orgId = orgId ∧ u.roleId = some role.id ∧ u.role = role.baseRole ∧
      t' = { t with
        users := t.users.insert u hu
        userCustomerScopes := t.userCustomerScopes ++ customerIds.map fun c ↦ ⟨id, c⟩
        groupMemberships := t.groupMemberships ++ groups.map fun g ↦ ⟨g.id, id⟩ } := by
  simp only [createUser, bind_eq_ok, demand_eq_ok, require_eq_ok, pure_eq_ok] at h
  obtain ⟨email, -, name, -, role, hrole, -, -, customerIds, -, groups, -, -, -, users, husers,
    rfl⟩ := h
  obtain ⟨hu, rfl⟩ := Keyed.insert?_eq_some.mp husers
  exact ⟨role, _, hu, customerIds, groups, hrole, rfl, rfl, rfl, rfl, rfl⟩

theorem checkRole_eq_ok {existing : ScopedUser} {role : Option NamedRole}
    (h : checkRole rules t orgId actor existing data = .ok role) :
    ∀ r ∈ role, r ∈ t.roles ∧ (∀ a ∈ actor, canActOnRole a r.toRole = true) ∧
      (existing.role = .superAdmin → existing.status = .active → r.baseRole ≠ .superAdmin →
        activeSuperAdminCount t orgId existing.id ≠ 0) := by
  simp only [checkRole, bind_eq_ok] at h
  obtain ⟨asked, hasked, h⟩ := h
  cases asked with
  | none =>
    obtain rfl := pure_eq_ok.mp h
    simp
  | some r =>
    dsimp only at h
    split at h
    · obtain rfl := pure_eq_ok.mp h
      simp
    · simp only [need, bind_eq_ok, require_eq_ok, pure_eq_ok] at h
      obtain ⟨-, -, -, hact, -, hcount, rfl⟩ := h
      rintro r' ⟨⟩
      refine ⟨(requestedRole_eq_ok hasked r rfl).1, ?_, ?_⟩
      · rintro a ⟨⟩
        exact hact
      · intro hrole hstatus hbase
        exact hcount.resolve_left fun hnot ↦ hnot ⟨hrole, hbase, hstatus⟩

theorem checkStatus_eq_ok {existing : ScopedUser} {asked edited : Option UserStatus}
    (h : checkStatus t orgId actor existing asked = .ok edited) :
    ∀ s ∈ edited, existing.role = .superAdmin → existing.status = .active →
      activeSuperAdminCount t orgId existing.id ≠ 0 := by
  cases asked with
  | none =>
    obtain rfl := Except.ok.inj h
    simp
  | some status =>
    rw [checkStatus] at h
    split at h
    · obtain rfl := Except.ok.inj h
      simp
    · simp only [need, bind_eq_ok, require_eq_ok, pure_eq_ok] at h
      obtain ⟨-, -, -, hcount, rfl⟩ := h
      intro s _ hrole hstatus
      exact hcount.resolve_left fun hnot ↦ hnot ⟨hrole, hstatus⟩

theorem checkUpdate_eq_ok {edit : UserEdit}
    (h : checkUpdate rules t orgId userId data actor = .ok edit) :
    ∃ existing, t.user orgId userId = some existing ∧
      (isSelf actor userId = true → data.groupIds = none ∧ edit.role = none) ∧
      (∀ r ∈ edit.role, r ∈ t.roles ∧ (∀ a ∈ actor, canActOnRole a r.toRole = true) ∧
        (existing.role = .superAdmin → existing.status = .active → r.baseRole ≠ .superAdmin →
          activeSuperAdminCount t orgId existing.id ≠ 0)) ∧
      ∀ s ∈ edit.status, existing.role = .superAdmin → existing.status = .active →
        activeSuperAdminCount t orgId existing.id ≠ 0 := by
  simp only [checkUpdate, bind_eq_ok, demand_eq_ok, require_eq_ok, pure_eq_ok] at h
  obtain ⟨existing, hexisting, -, hself, -, -, -, -, name, -, email, -, role, hrole, status, hstatus,
    managerId, -, rfl⟩ := h
  refine ⟨existing, hexisting, ?_, checkRole_eq_ok hrole, checkStatus_eq_ok hstatus⟩
  intro hs
  obtain ⟨hroleId, hrole', hgroupIds⟩ := data.only_name (hself.resolve_left fun hnot ↦ hnot hs)
  refine ⟨hgroupIds, ?_⟩
  have hasked : requestedRole rules t orgId data = .ok none := by
    rw [requestedRole, hroleId, hrole']
    rfl
  rw [checkRole, hasked] at hrole
  exact (pure_eq_ok.mp hrole).symm

theorem applyGroupMembership_eq_ok {groupIds : Option (List Id)}
    (h : applyGroupMembership t orgId userId groupIds actor = .ok t') :
    (groupIds = none ∧ t' = t) ∨
      ∃ groups, groupIds ≠ none ∧ t' = setGroups t orgId userId groups := by
  cases groupIds with
  | none => exact .inl ⟨rfl, (Except.ok.inj h).symm⟩
  | some ids =>
    rw [applyGroupMembership] at h
    cases hv : validateGroupIds t orgId actor ids with
    | error e => rw [hv] at h; cases h
    | ok groups =>
      rw [hv] at h
      exact .inr ⟨groups, by simp, (Except.ok.inj h).symm⟩

/-- `updateUser` changes nothing, or the groups of the user, or after them also
the row of the user. -/
theorem updateUser_cases :
    (updateUser rules t orgId userId data actor).1 = t ∨
    ∃ edit t₁, checkUpdate rules t orgId userId data actor = .ok edit ∧
      applyGroupMembership t orgId userId data.groupIds actor = .ok t₁ ∧
      ((updateUser rules t orgId userId data actor).1 = t₁ ∨
        (updateUser rules t orgId userId data actor).1 =
          { t₁ with users := t₁.users.update (editUser userId edit) editUser_id }) := by
  unfold updateUser
  cases hc : checkUpdate rules t orgId userId data actor with
  | error e => exact .inl rfl
  | ok edit =>
    cases ha : applyGroupMembership t orgId userId data.groupIds actor with
    | error e => exact .inl rfl
    | ok t₁ =>
      refine .inr ⟨edit, t₁, rfl, rfl, ?_⟩
      dsimp only
      split
      · exact .inr rfl
      · exact .inl rfl

end

end Shellius
