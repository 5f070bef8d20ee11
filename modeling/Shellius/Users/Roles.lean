import Shellius.Jit.Account
import Shellius.Lib.Checks
import Shellius.Tenancy

/-!
# Roles

`roleService`: who may act on a role, and how roles are created, edited and
deleted.  A call that is refused changes nothing, so a service is a function to
`Except ApiError Tenancy`; each has a lemma `_eq_ok` that says what a call that
went through had checked and what it wrote.
-/

namespace Shellius

open Lib

/-! ## Text -/

/-- The Unicode operations the services leave to the runtime and the database. -/
structure TextRules where
  /-- `String.prototype.trim` -/
  trim : String → String
  /-- `String.prototype.normalize('NFKD')` -/
  nfkd : List Char → List Char
  /-- `{ equals, mode: 'insensitive' }` -/
  insensitiveEquals : String → String → Bool

def plainText : TextRules where
  trim := id
  nfkd := id
  insensitiveEquals a b := a = b

/-- The answer of the error handler to a violated unique constraint. -/
def duplicateRow : ApiError := ⟨409, "Resource already exists", none⟩

/-- The answer of the error handler to a violated foreign key. -/
def databaseRequestError : ApiError := ⟨400, "Database request error", none⟩

/-! ## Actors -/

/-- `TIER_RANK` -/
def tierRank : OrgRole → Nat
  | .member => 1
  | .manager => 2
  | .admin => 3
  | .superAdmin => 4

/-- What `actorFromReq` returns. -/
structure Actor where
  userId : Id
  roleId : Option Id := none
  tier : OrgRole
  permissions : List String

/-- `hasPermission`, for an actor; trusted internal callers pass no actor. -/
def holds (actor : Option Actor) (key : String) : Bool := actor.all fun a ↦ key ∈ a.permissions

def coversAll (actorPerms perms : List String) : Bool := perms.all fun p ↦ p ∈ actorPerms

def missingFrom (actorPerms perms : List String) : List String :=
  perms.filter fun p ↦ p ∉ actorPerms

def canActOnRole (actor : Actor) (role : Role) : Bool :=
  if isOwnerRole role ∧ actor.tier ≠ .superAdmin then false
  else if tierRank role.baseRole > tierRank actor.tier then false
  else coversAll actor.permissions (permissionsOfRole role)

def assertCanActOnRole (actor : Actor) (role : Role) (what : String := "manage this role") :
    Except ApiError Unit :=
  require (canActOnRole actor role)
    ⟨403, "You can't " ++ what ++ ": it has permissions you don't hold", some "ROLE_ESCALATION"⟩

theorem coversAll_iff {actorPerms perms : List String} :
    coversAll actorPerms perms = true ↔ perms ⊆ actorPerms := by
  simp only [coversAll, List.all_eq_true, decide_eq_true_eq]
  rfl

theorem canActOnRole_spec {actor : Actor} {role : Role} (h : canActOnRole actor role = true) :
    permissionsOfRole role ⊆ actor.permissions ∧ tierRank role.baseRole ≤ tierRank actor.tier ∧
      (isOwnerRole role → actor.tier = .superAdmin) := by
  unfold canActOnRole at h
  split at h
  · cases h
  · rename_i howner
    split at h
    · cases h
    · rename_i htier
      refine ⟨coversAll_iff.mp h, by omega, fun ho ↦ ?_⟩
      by_contra hne
      exact howner ⟨ho, hne⟩

/-! ## Finding a role -/

/-- `resolveRole`: by id or key, else by name. -/
def resolveRole (rules : TextRules) (t : Tenancy) (orgId : Id) (ref : String) : Option NamedRole :=
  (t.roles.rows.find? fun r ↦ r.orgId = orgId ∧ (r.id = ref ∨ r.key = ref)).or
    (t.roles.rows.find? fun r ↦ r.orgId = orgId ∧ rules.insensitiveEquals r.name ref)

/-- `getSystemRole`, in an organization that has its built-in roles. -/
def getSystemRole (t : Tenancy) (orgId : Id) (tier : OrgRole) : Option NamedRole :=
  t.roles.rows.find? fun r ↦ r.orgId = orgId ∧ r.key = tier.key ∧ r.isSystem

theorem resolveRole_spec {rules : TextRules} {t : Tenancy} {orgId : Id} {ref : String}
    {r : NamedRole} (h : resolveRole rules t orgId ref = some r) :
    r ∈ t.roles ∧ r.orgId = orgId := by
  obtain h | ⟨-, h⟩ := Option.or_eq_some_iff.mp h
  · have hp := List.find?_some h
    simp only [decide_eq_true_eq] at hp
    exact ⟨List.mem_of_find?_eq_some h, hp.1⟩
  · have hp := List.find?_some h
    simp only [decide_eq_true_eq] at hp
    exact ⟨List.mem_of_find?_eq_some h, hp.1⟩

theorem getSystemRole_spec {t : Tenancy} {orgId : Id} {tier : OrgRole} {r : NamedRole}
    (h : getSystemRole t orgId tier = some r) :
    r ∈ t.roles ∧ r.orgId = orgId ∧ r.key = tier.key ∧ r.isSystem = true := by
  have hp := List.find?_some h
  simp only [decide_eq_true_eq] at hp
  exact ⟨List.mem_of_find?_eq_some h, hp⟩

/-! ## Keys -/

def slugify (rules : TextRules) (name : String) : String :=
  let cs := trimUnderscores (underscoreRuns false (rules.nfkd (name.toList.flatMap lowerChar)))
  if cs.take 40 = [] then "role" else String.ofList (cs.take 40)

def roleKeys (t : Tenancy) (orgId : Id) : List String :=
  (t.roles.rows.filter fun r ↦ r.orgId = orgId).map fun r ↦ r.key

/-- The loop of `uniqueKey`: the key itself, else `base_2`, `base_3`, … -/
def freeKey (taken : List String) (base key : String) : String :=
  if key ∈ taken then firstFree taken fun i ↦ base ++ "_" ++ (i + 2).repr else key

def uniqueKey (rules : TextRules) (t : Tenancy) (orgId : Id) (name : String) : String :=
  let base := slugify rules name
  freeKey (roleKeys t orgId) base
    (if base ∈ allTiers.map OrgRole.key then base ++ "_custom" else base)

theorem freeKey_notMem {taken : List String} {base key : String} :
    freeKey taken base key ∉ taken := by
  unfold freeKey
  split
  · refine firstFree_notMem fun i j h ↦ ?_
    have hlists := congrArg String.toList h
    simp only [String.toList_append] at hlists
    have hrepr : (i + 2).repr = (j + 2).repr := String.toList_inj.mp (List.append_cancel_left hlists)
    have hij := repr_injective hrepr
    omega
  · assumption

theorem uniqueKey_notMem {rules : TextRules} {t : Tenancy} {orgId : Id} {name : String} :
    uniqueKey rules t orgId name ∉ roleKeys t orgId := freeKey_notMem

/-! ## Creating, editing and deleting roles -/

/-- The body of `createRole` and `updateRole`. -/
structure RoleData where
  name : Option String := none
  baseRole : Option OrgRole := none
  permissions : Option (List String) := none
  copyFromRoleId : Option Id := none

def assertBaseRole (actor : Actor) (baseRole : OrgRole) : Except ApiError Unit := do
  require (baseRole ≠ .superAdmin) ⟨400, "baseRole must be one of: member, manager, admin", none⟩
  require (tierRank baseRole ≤ tierRank actor.tier)
    ⟨403, "A role's base can't be above your own", some "ROLE_ESCALATION"⟩

def assertGrantable (actor : Actor) (permissions : List String) : Except ApiError Unit :=
  require (missingFrom actor.permissions permissions = [])
    ⟨403, "You can only grant permissions you hold yourself", some "ROLE_ESCALATION"⟩

def assertNameFree (rules : TextRules) (t : Tenancy) (orgId : Id) (name : String)
    (exceptId : Option Id) : Except ApiError Unit :=
  require (t.roles.rows.all fun r ↦
      !(r.orgId = orgId && rules.insensitiveEquals r.name name && some r.id ≠ exceptId))
    ⟨409, "A role named \"" ++ name ++ "\" already exists", none⟩

/-- No other role of the organization has the name: `@@unique([orgId, name])`. -/
def nameUnique (t : Tenancy) (orgId : Id) (name : String) (exceptId : Option Id) : Bool :=
  t.roles.rows.all fun r ↦ !(r.orgId = orgId && r.name = name && some r.id ≠ exceptId)

def copySource (t : Tenancy) (orgId : Id) (ref : Option Id) : Except ApiError (Option NamedRole) :=
  match truthy ref with
  | none => .ok none
  | some id => (demand (t.role orgId id) ⟨404, "Role to copy not found", none⟩).map some

/-- `createRole`, with the id of the new row. -/
def createRole (rules : TextRules) (t : Tenancy) (orgId : Id) (actor : Actor) (data : RoleData)
    (id : Id) : Except ApiError Tenancy := do
  let name := rules.trim (data.name.getD "")
  require (name ≠ "") ⟨400, "name is required", none⟩
  assertNameFree rules t orgId name none
  let source ← copySource t orgId data.copyFromRoleId
  let permissions := normalizePermissions
    ((data.permissions.or (source.map fun s ↦ permissionsOfRole s.toRole)).getD [])
  let baseRole := (data.baseRole.or (source.map fun s ↦
    if s.baseRole = .superAdmin then .admin else s.baseRole)).getD .member
  assertBaseRole actor baseRole
  assertGrantable actor permissions
  let key := uniqueKey rules t orgId name
  require (nameUnique t orgId name none) duplicateRow
  let roles ← demand (t.roles.insert? { id, orgId, key, name, baseRole, permissions }) duplicateRow
  pure { t with roles }

/-- The columns an edit writes. -/
structure RoleEdit where
  name : Option String
  baseRole : Option OrgRole
  permissions : Option (List String)

def RoleEdit.apply (edit : RoleEdit) (r : NamedRole) : NamedRole :=
  { r with
    name := edit.name.getD r.name
    baseRole := edit.baseRole.getD r.baseRole
    permissions := edit.permissions.getD r.permissions }

/-- The new name an edit asks for. -/
def checkRoleName (rules : TextRules) (t : Tenancy) (orgId : Id) (role : NamedRole) :
    Option String → Except ApiError (Option String)
  | none => .ok none
  | some s => do
      require (¬ role.isSystem) ⟨400, "Built-in roles cannot be renamed", none⟩
      let name := rules.trim s
      require (name ≠ "") ⟨400, "name cannot be empty", none⟩
      assertNameFree rules t orgId name (some role.id)
      pure (some name)

/-- The new base tier an edit asks for. -/
def checkRoleBase (actor : Actor) (role : NamedRole) :
    Option OrgRole → Except ApiError (Option OrgRole)
  | none => .ok none
  | some baseRole =>
    if baseRole = role.baseRole then .ok none
    else do
      require (¬ role.isSystem) ⟨400, "A built-in role's base cannot change", none⟩
      assertBaseRole actor baseRole
      pure (some baseRole)

/-- The new permissions an edit asks for. -/
def checkRolePermissions (actor : Actor) :
    Option (List String) → Except ApiError (Option (List String))
  | none => .ok none
  | some keys => do
      assertGrantable actor (normalizePermissions keys)
      pure (some (normalizePermissions keys))

def retier (orgId roleId : Id) (baseRole : OrgRole) (u : ScopedUser) : ScopedUser :=
  { u with role := if u.orgId = orgId ∧ u.roleId = some roleId then baseRole else u.role }

theorem retier_id {orgId roleId : Id} {baseRole : OrgRole} (u : ScopedUser) :
    (retier orgId roleId baseRole u).id = u.id := rfl

def editRole (id : Id) (edit : RoleEdit) (r : NamedRole) : NamedRole :=
  if r.id = id then edit.apply r else r

theorem editRole_id {id : Id} {edit : RoleEdit} (r : NamedRole) :
    (editRole id edit r).id = r.id := by
  unfold editRole
  split <;> rfl

/-- The transaction of `updateRole`. -/
def applyRoleEdit (t : Tenancy) (orgId id : Id) (edit : RoleEdit) : Tenancy :=
  { t with
    roles := t.roles.update (editRole id edit) editRole_id
    users := match edit.baseRole with
      | none => t.users
      | some baseRole => t.users.update (retier orgId id baseRole) retier_id }

def updateRole (rules : TextRules) (t : Tenancy) (orgId : Id) (actor : Actor) (id : Id)
    (data : RoleData) : Except ApiError Tenancy := do
  let role ← demand (t.role orgId id) ⟨404, "Role not found", none⟩
  require (¬ isOwnerRole role.toRole)
    ⟨403, "The Super admin role always has every permission and cannot be edited", none⟩
  require (actor.roleId ≠ some role.id) ⟨403, "You can't edit the role you hold",
    some "ROLE_SELF_EDIT"⟩
  assertCanActOnRole actor role.toRole "edit this role"
  let name ← checkRoleName rules t orgId role data.name
  let baseRole ← checkRoleBase actor role data.baseRole
  let permissions ← checkRolePermissions actor data.permissions
  require (nameUnique t orgId (name.getD role.name) (some id)) duplicateRow
  pure (applyRoleEdit t orgId id ⟨name, baseRole, permissions⟩)

def moveToRole (orgId id : Id) (target : NamedRole) (u : ScopedUser) : ScopedUser :=
  { u with
    roleId := if u.orgId = orgId ∧ u.roleId = some id then some target.id else u.roleId
    role := if u.orgId = orgId ∧ u.roleId = some id then target.baseRole else u.role }

theorem moveToRole_id {orgId id : Id} {target : NamedRole} (u : ScopedUser) :
    (moveToRole orgId id target u).id = u.id := rfl

/-- Drop the subjects of a policy that fail a test. -/
def keepSubjects (keep : PolicySubject → Bool) (p : AccessPolicy) : AccessPolicy :=
  { p with subjects := p.subjects.filter keep }

/-- The subjects that `deleteRole` leaves a policy. -/
def dropRoleSubject (orgId : Id) (key : String) (p : AccessPolicy) : AccessPolicy :=
  keepSubjects (fun s ↦ !(p.orgId = orgId && s.subjectType = .role && s.subjectId = key)) p

theorem dropRoleSubject_id {orgId : Id} {key : String} (p : AccessPolicy) :
    (dropRoleSubject orgId key p).id = p.id := rfl

/-- The role the users of a deleted role are moved to; none where it has no
users. -/
def reassignmentTarget (t : Tenancy) (orgId : Id) (actor : Actor) (id : Id)
    (reassignToRoleId : Option Id) : Except ApiError (Option NamedRole) :=
  let userCount := (t.users.rows.filter fun u ↦ u.orgId = orgId ∧ u.roleId = some id).length
  if userCount = 0 then .ok none
  else do
    let ref ← demand (truthy reassignToRoleId)
      ⟨409, userCount.repr ++ " user(s) have this role — choose a role to move them to",
        some "ROLE_IN_USE"⟩
    let target ← demand ((t.role orgId ref).filter fun r ↦ r.id ≠ id)
      ⟨400, "Choose a different, existing role to move users to", none⟩
    assertCanActOnRole actor target.toRole "move users to that role"
    pure (some target)

def usersMoved (t : Tenancy) (orgId id : Id) : Option NamedRole → Keyed (fun u : ScopedUser ↦ u.id)
  | none => t.users
  | some target => t.users.update (moveToRole orgId id target) moveToRole_id

def deleteRole (t : Tenancy) (orgId : Id) (actor : Actor) (id : Id)
    (reassignToRoleId : Option Id) : Except ApiError Tenancy := do
  let role ← demand (t.role orgId id) ⟨404, "Role not found", none⟩
  require (¬ role.isSystem) ⟨400, "Built-in roles cannot be deleted", none⟩
  require (actor.roleId ≠ some role.id) ⟨403, "You can't delete the role you hold", none⟩
  assertCanActOnRole actor role.toRole "delete this role"
  let target ← reassignmentTarget t orgId actor id reassignToRoleId
  let users := usersMoved t orgId id target
  -- `User.assignedRole` has `onDelete: Restrict`
  require (users.rows.all fun u ↦ u.roleId ≠ some id) databaseRequestError
  pure { t with
    users
    roles := t.roles.filter fun r ↦ r.id ≠ id
    accessPolicies := t.accessPolicies.update (dropRoleSubject orgId role.key) dropRoleSubject_id }

/-! ## What a call that went through has done -/

theorem mem_normalizePermissions {keys : List String} {k : String} :
    k ∈ normalizePermissions keys ↔ k ∈ permissionKeys ∧ k ∈ keys := by
  simp [normalizePermissions]

theorem normalizePermissions_idem (keys : List String) :
    normalizePermissions (normalizePermissions keys) = normalizePermissions keys := by
  refine List.filter_congr fun k hk ↦ ?_
  simp [mem_normalizePermissions, hk]

theorem missingFrom_eq_nil {actorPerms perms : List String} :
    missingFrom actorPerms perms = [] ↔ perms ⊆ actorPerms := by
  simp only [missingFrom, List.filter_eq_nil_iff, decide_eq_true_eq, not_not]
  rfl

section

variable {rules : TextRules} {t t' : Tenancy} {orgId id : Id} {actor : Actor} {data : RoleData}

theorem mem_usersMoved {target : NamedRole} {u' : ScopedUser} :
    u' ∈ usersMoved t orgId id (some target) ↔ ∃ u ∈ t.users, moveToRole orgId id target u = u' :=
  Keyed.mem_update moveToRole_id

theorem users_applyRoleEdit {edit : RoleEdit} :
    (applyRoleEdit t orgId id edit).users = match edit.baseRole with
      | none => t.users
      | some baseRole => t.users.update (retier orgId id baseRole) retier_id := rfl

theorem createRole_eq_ok (h : createRole rules t orgId actor data id = .ok t') :
    ∃ (r : NamedRole) (hr : ∀ r' ∈ t.roles, r'.id ≠ r.id),
      t' = { t with roles := t.roles.insert r hr } ∧ r.id = id ∧ r.orgId = orgId ∧
      r.isSystem = false ∧ r.key ∉ roleKeys t orgId ∧
      permissionsOfRole r.toRole ⊆ actor.permissions ∧
      tierRank r.baseRole ≤ tierRank actor.tier := by
  simp only [createRole, assertNameFree, assertBaseRole, assertGrantable, bind_eq_ok,
    require_eq_ok, demand_eq_ok, pure_eq_ok, missingFrom_eq_nil] at h
  obtain ⟨-, -, -, -, source, -, -, ⟨-, -, hrank⟩, -, hgrant, -, -, roles, hroles, rfl⟩ := h
  obtain ⟨hfresh, rfl⟩ := Keyed.insert?_eq_some.mp hroles
  refine ⟨_, hfresh, rfl, rfl, rfl, rfl, uniqueKey_notMem, ?_, hrank⟩
  rw [permissionsOfRole, if_neg (by simp [isOwnerRole]), normalizePermissions_idem]
  exact hgrant

theorem checkRoleBase_eq_ok {role : NamedRole} {asked edited : Option OrgRole}
    (h : checkRoleBase actor role asked = .ok edited) :
    tierRank role.baseRole ≤ tierRank actor.tier →
      tierRank (edited.getD role.baseRole) ≤ tierRank actor.tier := by
  intro hrank
  cases asked with
  | none =>
    obtain rfl := Except.ok.inj h
    exact hrank
  | some baseRole =>
    rw [checkRoleBase] at h
    split at h
    · obtain rfl := Except.ok.inj h
      exact hrank
    · simp only [assertBaseRole, bind_eq_ok, require_eq_ok, pure_eq_ok] at h
      obtain ⟨-, -, -, ⟨-, -, hle⟩, rfl⟩ := h
      exact hle

theorem checkRolePermissions_eq_ok {asked edited : Option (List String)}
    (h : checkRolePermissions actor asked = .ok edited) :
    ∀ keys ∈ edited, keys ⊆ actor.permissions ∧ normalizePermissions keys = keys := by
  cases asked with
  | none =>
    obtain rfl := Except.ok.inj h
    simp
  | some asked =>
    simp only [checkRolePermissions, assertGrantable, bind_eq_ok, require_eq_ok, pure_eq_ok,
      missingFrom_eq_nil] at h
    obtain ⟨-, hgrant, rfl⟩ := h
    rintro keys ⟨⟩
    exact ⟨hgrant, normalizePermissions_idem asked⟩

theorem updateRole_eq_ok (h : updateRole rules t orgId actor id data = .ok t') :
    ∃ (role : NamedRole) (edit : RoleEdit),
      t.role orgId id = some role ∧ t' = applyRoleEdit t orgId id edit ∧
      canActOnRole actor role.toRole = true ∧ actor.roleId ≠ some id ∧
      permissionsOfRole (edit.apply role).toRole ⊆ actor.permissions ∧
      tierRank (edit.apply role).baseRole ≤ tierRank actor.tier := by
  simp only [updateRole, assertCanActOnRole, bind_eq_ok, require_eq_ok, demand_eq_ok,
    pure_eq_ok] at h
  obtain ⟨role, hrole, -, howner, -, hheld, -, hact, name, -, baseRole, hbase, permissions, hperms,
    -, -, rfl⟩ := h
  obtain ⟨hsub, hrank, -⟩ := canActOnRole_spec hact
  refine ⟨role, ⟨name, baseRole, permissions⟩, hrole, rfl, hact, ?_, ?_,
    checkRoleBase_eq_ok hbase hrank⟩
  · rw [← (Tenancy.role_eq_some.mp hrole).2.1]
    exact hheld
  · have howner' : isOwnerRole (RoleEdit.apply ⟨name, baseRole, permissions⟩ role).toRole =
        isOwnerRole role.toRole := rfl
    rw [permissionsOfRole, howner', if_neg howner]
    rw [permissionsOfRole, if_neg howner] at hsub
    cases permissions with
    | none => exact hsub
    | some keys =>
      obtain ⟨hkeys, hnormal⟩ := checkRolePermissions_eq_ok hperms keys rfl
      change normalizePermissions keys ⊆ actor.permissions
      rw [hnormal]
      exact hkeys

theorem getSystemRole_insert {r : NamedRole} {hr : ∀ r' ∈ t.roles, r'.id ≠ r.id} {tier : OrgRole}
    (h : r.isSystem = false) :
    getSystemRole { t with roles := t.roles.insert r hr } orgId tier =
      getSystemRole t orgId tier := by
  have hnone : [r].find? (fun r ↦ decide (r.orgId = orgId ∧ r.key = tier.key ∧ r.isSystem)) =
      none := by
    simp [h]
  simp only [getSystemRole, Keyed.insert]
  rw [List.find?_append, hnone, Option.or_none]

theorem getSystemRole_applyRoleEdit {edit : RoleEdit} {tier : OrgRole} :
    getSystemRole (applyRoleEdit t orgId id edit) orgId tier =
      (getSystemRole t orgId tier).map (editRole id edit) := by
  simp only [getSystemRole, applyRoleEdit, Keyed.update, List.find?_map]
  congr 1
  refine congrArg (fun p ↦ t.roles.rows.find? p) (funext fun r ↦ ?_)
  simp only [Function.comp_apply, editRole, RoleEdit.apply]
  split <;> rfl

theorem getSystemRole_delete {role : NamedRole} {tier : OrgRole}
    (hrole : t.role orgId id = some role) (h : role.isSystem = false)
    (ht' : t'.roles = t.roles.filter fun r ↦ r.id ≠ id) :
    getSystemRole t' orgId tier = getSystemRole t orgId tier := by
  obtain ⟨hmem, hid, -⟩ := Tenancy.role_eq_some.mp hrole
  rw [getSystemRole, ht', Keyed.filter, List.find?_filter]
  refine find?_congr fun r hr ↦ ?_
  by_cases hne : r.id = id
  · obtain rfl : r = role := Keyed.ext hr hmem (hne.trans hid.symm)
    simp [h]
  · simp [hne]

theorem reassignmentTarget_eq_ok {ref : Option Id} {target : Option NamedRole}
    (h : reassignmentTarget t orgId actor id ref = .ok target) :
    ∀ r ∈ target, r ∈ t.roles ∧ r.id ≠ id ∧ canActOnRole actor r.toRole = true := by
  simp only [reassignmentTarget] at h
  split at h
  · obtain rfl := Except.ok.inj h
    simp
  · simp only [assertCanActOnRole, bind_eq_ok, require_eq_ok, demand_eq_ok, pure_eq_ok,
      Option.filter_eq_some_iff, decide_eq_true_eq, Tenancy.role_eq_some] at h
    obtain ⟨-, -, r, ⟨⟨hmem, -⟩, hne⟩, -, hact, rfl⟩ := h
    rintro r' ⟨⟩
    exact ⟨hmem, hne, hact⟩

theorem deleteRole_eq_ok {ref : Option Id} (h : deleteRole t orgId actor id ref = .ok t') :
    ∃ (role : NamedRole) (target : Option NamedRole),
      t.role orgId id = some role ∧ role.isSystem = false ∧
      (∀ r ∈ target, r ∈ t.roles ∧ r.id ≠ id ∧ canActOnRole actor r.toRole = true) ∧
      (∀ u ∈ usersMoved t orgId id target, u.roleId ≠ some id) ∧
      t' = { t with
        users := usersMoved t orgId id target
        roles := t.roles.filter fun r ↦ r.id ≠ id
        accessPolicies :=
          t.accessPolicies.update (dropRoleSubject orgId role.key) dropRoleSubject_id } := by
  simp only [deleteRole, assertCanActOnRole, bind_eq_ok, require_eq_ok, demand_eq_ok,
    pure_eq_ok, Bool.not_eq_true, List.all_eq_true, decide_eq_true_eq] at h
  obtain ⟨role, hrole, -, hsystem, -, -, -, -, target, htarget, -, hrestrict, rfl⟩ := h
  exact ⟨role, target, hrole, hsystem, reassignmentTarget_eq_ok htarget, hrestrict, rfl⟩

end

end Shellius
