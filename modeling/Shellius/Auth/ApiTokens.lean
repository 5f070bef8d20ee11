import Shellius.Access.Twins
import Shellius.Users.Twins

/-!
# Requests made with an API token

`apiTokenAuth` hydrates a request from the row of the token's owner, like a sign-in does, but
narrows `req.user.permissions` to the scopes of the token.  The calls are those of the routes
for access requests, policy evaluation, roles and users: a gate on the permissions of the
request, and then the service.

Left out are the path guard (`Auth.TokenPaths`), the last-used columns, and the data of a
response beyond what it says about access.
-/

namespace Shellius.Auth

open Lib

/-! ## Hydration -/

/-- `NON_DELEGABLE_PERMISSIONS` -/
def nonDelegablePermissions : List String :=
  ["access.break_glass", "ca.rotate", "keystore.export_private", "users.assign_role",
    "users.reset_credentials", "users.delete", "users.manage_identities", "roles.manage",
    "settings.sso", "settings.mfa", "settings.smtp", "settings.storage", "settings.notifications",
    "settings.updates", "audit.sinks", "audit.retention", "tokens.personal", "tokens.revoke_any",
    "service_accounts.manage"]

/-- `req.user` and `req.scope`, as far as the calls read them. -/
structure RequestUser where
  userId : Id
  orgId : Id
  role : OrgRole
  roleId : Option Id
  permissions : List String
  scope : Scope

/-- `hydrateRequestUser`; the permissions are the full live set of the user unless they are
given. -/
def hydrateRequestUser (t : Tenancy) (u : ScopedUser) (permissions : Option (List String)) :
    RequestUser where
  userId := u.id
  orgId := u.orgId
  role := u.role
  roleId := u.roleId
  permissions := permissions.getD (t.permissionsOf u)
  scope := t.resolveScope u

def actorFromReq (req : RequestUser) : Actor where
  userId := req.userId
  roleId := req.roleId
  tier := req.role
  permissions := req.permissions

structure ApiToken where
  orgId : Id
  userId : Id
  scopes : List String := []
  revokedAt : Option Millis := none
  expiresAt : Option Millis := none

/-- `effectivePermissions`, a set: what the user's role allows now, narrowed to the scopes if the
token has any, less what cannot be delegated. -/
def effectivePermissions (t : Tenancy) (u : ScopedUser) (scopes : List String) : List String :=
  (t.permissionsOf u).filter fun k ↦
    (scopes = [] ∨ k ∈ scopes) ∧ k ∉ nonDelegablePermissions

/-- `apiTokenAuth`, from the token row on. -/
def apiTokenAuth (t : Tenancy) (now : Millis) (token : Option ApiToken) :
    Except ApiError RequestUser := do
  let token ← demand token ⟨401, "Invalid API token", some "TOKEN_INVALID"⟩
  require (token.revokedAt = none) ⟨401, "This API token has been revoked", some "TOKEN_REVOKED"⟩
  require (token.expiresAt.all fun at' ↦ now < at')
    ⟨401, "This API token has expired", some "TOKEN_EXPIRED"⟩
  let user ← demand ((t.users.find token.userId).filter fun u ↦
      u.orgId = token.orgId ∧ u.status = .active)
    ⟨401, "The identity behind this token is no longer active", some "TOKEN_PRINCIPAL_INACTIVE"⟩
  pure (hydrateRequestUser t user (some (effectivePermissions t user token.scopes)))

/-! ## The organization -/

/-- The rows the calls read and write.  No call writes the servers. -/
structure Org where
  tenancy : Tenancy
  organizations : List Organization := []
  credentials : List Credential := []
  servers : List Server := []
  accessRequests : List AccessRequest := []
  serverKey : (servers.map Server.id).Nodup := by decide
  serverTruthy : ∀ s ∈ servers, s.id ≠ "" := by decide

/-- The rows that say who may reach what. -/
def Org.database (o : Org) : Database where
  organizations := o.organizations
  roles := o.tenancy.roles.rows.map NamedRole.toRole
  users := o.tenancy.users.rows.map ScopedUser.toUser
  groups := o.tenancy.groups.rows.map ScopedGroup.toGroup
  groupMemberships := o.tenancy.groupMemberships
  credentials := o.credentials
  servers := o.servers
  accessPolicies := o.tenancy.accessPolicies.rows
  serverKey := o.serverKey
  serverTruthy := o.serverTruthy
  policyKey := o.tenancy.accessPolicies.nodup

/-! ## The calls -/

/-- The body of `POST /api/access-requests`. -/
structure SubmitBody where
  serverId : Id
  reason : String
  requestedDuration : Int
  requestedPrincipal : Option String := none
  protocol : Protocol := .ssh

def SubmitBody.params (body : SubmitBody) (req : RequestUser) : SubmitParams where
  orgId := req.orgId
  requesterId := req.userId
  serverId := body.serverId
  reason := body.reason
  requestedDuration := body.requestedDuration
  requestedPrincipal := body.requestedPrincipal
  protocol := body.protocol
  callerPermissions := req.permissions
  scope := req.scope

/-- The body of `POST /api/policies/evaluate`. -/
structure EvaluateBody where
  userId : Id
  serverId : Id
  requestedPrincipal : Option String := none
  policyId : Option Id := none
  policy : Option DraftPolicy := none

def EvaluateBody.params (body : EvaluateBody) (req : RequestUser) : EvaluateParams where
  orgId := req.orgId
  userId := body.userId
  serverId := body.serverId
  requestedPrincipal := body.requestedPrincipal
  policyId := body.policyId
  draftPolicy := body.policy

/-- What an administrator does to another account besides editing its row. -/
inductive AccountAction where
  | resendInvite | unlock | revokeSessions
deriving DecidableEq

/-- The gate of the route. -/
def AccountAction.permission : AccountAction → String
  | .resendInvite => "users.invite"
  | .unlock => "users.reset_credentials"
  | .revokeSessions => "users.revoke_sessions"

/-- How `assertCanManageUser` puts it. -/
def AccountAction.what : AccountAction → String
  | .resendInvite => "invite this user"
  | .unlock => "unlock this user"
  | .revokeSessions => "sign this user out"

inductive Call where
  | submit (id : Id) (body : SubmitBody)
  | evaluate (body : EvaluateBody)
  | accessIntents (serverIds : List (Option Id))
  | createRole (data : RoleData) (id : Id)
  | updateRole (id : Id) (data : RoleData)
  | resetRole (id : Id)
  | deleteRole (id : Id) (reassignToRoleId : Option Id)
  | createUser (data : UserData) (id : Id)
  | updateUser (userId : Id) (data : UserData)
  | assignUserScope (userId : Id) (accessScope : AccessScope) (customerIds : List Id)
  | deleteUser (userId : Id) (reassignReportsTo : Option Id)
  | softDeleteSelf
  | account (action : AccountAction) (userId : Id)

/-- What a response says. -/
inductive Answer where
  | done
  /-- `allowed` and `requiresApproval`. -/
  | ruling (outcome : Bool × Bool)
  | rulings (outcomes : List (Id × Bool × Bool))
deriving DecidableEq

def requirePermission (req : RequestUser) (key : String) : Except ApiError Unit :=
  require (key ∈ req.permissions) ⟨403, "You don’t have permission to do this",
    some "PERMISSION_DENIED"⟩

/-- `[...new Set(serverIds)].filter(Boolean)` -/
def namedServers (serverIds : List (Option Id)) : List Id := serverIds.eraseDups.filterMap truthy

/-- Some server is not one the caller sees. -/
def namesOutOfScope (db : Database) (req : RequestUser) (ids : List Id) : Bool :=
  req.scope ≠ .unscoped ∧ (db.servers.filter fun s ↦
    s.orgId = req.orgId ∧ s.id ∈ ids ∧ inScope req.scope s).length ≠ ids.length

/-- The policy fields of `getAccessIntentsBulk`. -/
def getAccessIntentsBulk (db : Database) (req : RequestUser) (serverIds : List (Option Id)) :
    Except ApiError (List (Id × Bool × Bool)) :=
  let ids := namedServers serverIds
  if ids = [] then .ok []
  else if namesOutOfScope db req ids then .error ⟨404, "Server not found", none⟩
  else (evaluateBulk db req.orgId req.userId (ids.map some)).map bulkOutcomes

def resetRole (rules : TextRules) (t : Tenancy) (orgId : Id) (actor : Actor) (id : Id) :
    Except ApiError Tenancy := do
  let role ← demand (t.role orgId id) ⟨404, "Role not found", none⟩
  require (role.isSystem) ⟨400, "Only built-in roles can be reset to defaults", none⟩
  let defaults := (allTiers.find? fun tier ↦ tier.key = role.key).elim [] defaultPermissionsFor
  updateRole rules t orgId actor id { permissions := some defaults }

def checkAccount (t : Tenancy) (orgId : Id) (actor : Actor) (action : AccountAction) (userId : Id) :
    Except ApiError Unit := do
  let user ← demand (t.user orgId userId) ⟨404, "User not found", none⟩
  assertCanManageUser (some actor) user (t.assignedRole user) action.what
  require (action = .resendInvite → user.status = .invited)
    ⟨409, "This user has already joined — send a password reset link instead", none⟩

/-- The status that `POST /api/users` gives a new user. -/
def invited (data : UserData) : UserData :=
  { data with status := some (if (truthy data.password).isSome then .active else .invited) }

/-- The organization after a service of the tenancy; a refused call changes nothing. -/
def Org.commit (o : Org) : Except ApiError Tenancy → Except ApiError Answer × Org
  | .error e => (.error e, o)
  | .ok tenancy => (.ok .done, { o with tenancy })

/-- The organization with the row of a submission that was not refused. -/
def Org.record (o : Org) : Except ApiError AccessRequest → Except ApiError Answer × Org
  | .error e => (.error e, o)
  | .ok row => (.ok .done, { o with accessRequests := o.accessRequests ++ [row] })

def Org.reply {α : Type} (o : Org) (answer : α → Answer) (x : Except ApiError α) :
    Except ApiError Answer × Org := (x.map answer, o)

/-- What the routes make of a call. -/
def respond (rules : TextRules) (now : Millis) (o : Org) (req : RequestUser) (call : Call) :
    Except ApiError Answer × Org :=
  if req.orgId = "" then (.error ⟨401, "Organization context required", none⟩, o)
  else
    let actor := actorFromReq req
    match call with
    | .submit id body => o.record (submit o.database now id (body.params req))
    | .evaluate body =>
      o.reply .ruling (requirePermission req "policies.view" >>= fun _ ↦
        (evaluate o.database (body.params req)).map Evaluation.outcome)
    | .accessIntents serverIds =>
      o.reply .rulings (getAccessIntentsBulk o.database req serverIds)
    | .createRole data id =>
      o.commit (requirePermission req "roles.manage" >>= fun _ ↦
        createRole rules o.tenancy req.orgId actor data id)
    | .updateRole id data =>
      o.commit (requirePermission req "roles.manage" >>= fun _ ↦
        updateRole rules o.tenancy req.orgId actor id data)
    | .resetRole id =>
      o.commit (requirePermission req "roles.manage" >>= fun _ ↦
        resetRole rules o.tenancy req.orgId actor id)
    | .deleteRole id reassignToRoleId =>
      o.commit (requirePermission req "roles.manage" >>= fun _ ↦
        deleteRole o.tenancy req.orgId actor id reassignToRoleId)
    | .createUser data id =>
      o.commit (requirePermission req "users.invite" >>= fun _ ↦
        createUser rules o.tenancy req.orgId (invited data) (some actor) req.scope id)
    | .updateUser userId data =>
      let (tenancy, answer) := updateUser rules o.tenancy req.orgId userId data (some actor)
      (answer.map fun _ ↦ .done, { o with tenancy })
    | .assignUserScope userId accessScope customerIds =>
      o.commit (requirePermission req "users.assign_scope" >>= fun _ ↦
        assignUserScope o.tenancy req.orgId userId accessScope customerIds (some actor) req.scope)
    | .deleteUser userId reassignReportsTo =>
      o.commit (requirePermission req "users.delete" >>= fun _ ↦
        deleteUser o.tenancy req.orgId userId reassignReportsTo (some actor))
    | .softDeleteSelf => o.commit (softDeleteSelf o.tenancy req.orgId req.userId now)
    | .account action userId =>
      o.reply (fun _ ↦ .done) (requirePermission req action.permission >>= fun _ ↦
        checkAccount o.tenancy req.orgId actor action userId)

/-! ## What a token holds -/

variable {t : Tenancy} {u : ScopedUser} {scopes : List String}

theorem notMem_effectivePermissions {k : String} (hk : k ∈ nonDelegablePermissions) :
    k ∉ effectivePermissions t u scopes := by
  intro h
  have hp := of_decide_eq_true (List.mem_filter.mp h).2
  exact hp.2 hk

/-- `permissionsForUser` lists what it finds in the order of the catalogue. -/
theorem permissionsOf_sublist : (t.permissionsOf u).Sublist permissionKeys := by
  unfold Tenancy.permissionsOf
  cases (t.assignedRole u).map NamedRole.toRole with
  | none =>
    rw [permissionsForUser, defaultPermissionsFor]
    split
    · exact List.Sublist.refl _
    · exact List.filter_sublist.map _
  | some r =>
    rw [permissionsForUser, permissionsOfRole]
    split
    · exact List.Sublist.refl _
    · exact List.filter_sublist

theorem nodup_permissionKeys : permissionKeys.Nodup := by decide +kernel

theorem normalizePermissions_of_sublist {keys : List String} (h : keys.Sublist permissionKeys) :
    normalizePermissions keys = keys := by
  have hsub : keys.Sublist (normalizePermissions keys) := by
    have hfilter : keys.filter (fun k ↦ k ∈ keys) = keys :=
      List.filter_eq_self.mpr fun k hk ↦ decide_eq_true hk
    have := h.filter fun k ↦ decide (k ∈ keys)
    rwa [hfilter] at this
  have hnodup : (normalizePermissions keys).Nodup := nodup_permissionKeys.filter _
  have hmem : normalizePermissions keys ⊆ keys := fun k hk ↦ (mem_normalizePermissions.mp hk).2
  exact (hsub.eq_of_length_le (List.subperm_of_subset hnodup hmem).length_le).symm

theorem normalizePermissions_effectivePermissions :
    normalizePermissions (effectivePermissions t u scopes) = effectivePermissions t u scopes :=
  normalizePermissions_of_sublist (List.filter_sublist.trans permissionsOf_sublist)

end Shellius.Auth
