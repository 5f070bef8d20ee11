import Mathlib.Data.List.Infix
import Shellius.Tenancy
import Shellius.Text

/-!
# Accounts and their identities

The rows that say how a person signs in: the account with its password, the sign-in providers
of the organization, and the identities that link an account to a subject of a provider.  No
subject of a provider is linked twice, which is the unique constraint of `UserIdentity`.
-/

namespace Shellius.Sso

open Lib

/-! ## Rows -/

/-- `User`, with the columns of sign-in. -/
structure Account extends User where
  passwordHash : Option String := none
  avatarUrl : Option String := none
  ssoProvider : Option String := none
  ssoSub : Option String := none
  lastLoginAt : Option Millis := none
deriving DecidableEq

/-- A sign-in provider of an organization. -/
structure SsoConfig where
  id : Id
  orgId : Id
  provider : String := "oidc"
  presetId : Option String := none
  name : String := "Single Sign-On"
  defaultRole : String := "member"
  defaultGroupId : Option Id := none
  autoProvision : Bool := true
  allowedDomains : List String := []
  requireVerifiedEmail : Bool := true
  isActive : Bool := true

structure UserIdentity where
  id : Id
  orgId : Id
  userId : Id
  ssoConfigId : Id
  provider : String
  subject : String
  externalId : Option String := none
  email : Option String := none
  lastLoginAt : Option Millis := none

/-- The subject of a provider that an identity is about. -/
def UserIdentity.key (i : UserIdentity) : Id × String := (i.ssoConfigId, i.subject)

/-- `DISABLED_STATUSES` -/
def disabledStatuses : List UserStatus := [.deleted, .suspended, .deactivated]

/-- `ssoError`; the code is its `errorCode`. -/
def ssoError (code message : String) (statusCode : Nat := 403) : ApiError :=
  ⟨statusCode, message, some code⟩

/-! ## Privileges -/

/-- The keys of the catalogue in the groups `users`, `roles` and `settings`. -/
def administrationKeys : List String := [
  "users.view", "users.view_reports", "users.invite", "users.update", "users.assign_role",
  "users.suspend", "users.reset_credentials", "users.revoke_sessions", "users.delete",
  "users.manage_identities", "users.assign_scope", "roles.view", "roles.manage", "org.update",
  "org.access_settings", "settings.sso", "settings.mfa", "settings.smtp", "settings.storage",
  "settings.notifications", "settings.updates"]

/-- The keys in the group `tokens`. -/
def tokenKeys : List String := [
  "tokens.personal", "tokens.view_all", "tokens.revoke_any", "service_accounts.view",
  "service_accounts.manage"]

/-- `SENSITIVE` -/
def sensitivePermissions : List String := [
  "customers.delete", "servers.change_environment", "servers.manage_credentials",
  "servers.reset_host_key", "servers.delete", "import.run", "access.prod_bypass",
  "access.bypass_policies", "access.break_glass", "quick_connect.use_stored_identity",
  "certificates.issue_direct", "ca.rotate", "policies.manage", "sessions.view_recordings",
  "audit.export", "keystore.manage", "keystore.export_private", "keystore.deploy",
  "users.assign_role", "users.reset_credentials", "users.delete", "users.manage_identities",
  "users.assign_scope", "posture.mute", "posture.export", "posture.expected_ports",
  "posture.settings", "roles.manage", "org.access_settings", "settings.sso", "settings.mfa",
  "settings.smtp", "settings.storage", "settings.notifications", "settings.updates",
  "audit.sinks", "audit.retention", "tokens.revoke_any", "service_accounts.manage"]

/-- The keys that match `/\.view(_|$)/`. -/
def isViewKey (key : String) : Bool :=
  ".view".toList <:+ key.toList ∨ ".view_".toList <:+: key.toList

/-- `PRIVILEGED_PERMISSIONS` -/
def privilegedPermissions : List String :=
  permissionKeys.filter fun key ↦
    key ∈ administrationKeys && !isViewKey key ||
      (key ∈ tokenKeys && key ∈ sensitivePermissions) || key = "access.prod_bypass"

theorem prodBypass_mem_privileged : "access.prod_bypass" ∈ privilegedPermissions :=
  List.mem_filter.mpr ⟨by decide, by simp⟩

/-! ## Tables -/

/-- The tables.  The tier of a user is that of their role, and the tier of owners is that of
the owner's role alone. -/
structure Directory where
  roles : Keyed (fun r : NamedRole ↦ r.id) := .empty
  users : Keyed (fun u : Account ↦ u.id) := .empty
  identities : Keyed UserIdentity.key := .empty
  groups : List Id := []
  groupMemberships : List GroupMembership := []
  tiers : ∀ u ∈ users, ∀ r ∈ roles, u.roleId = some r.id → u.role = r.baseRole := by decide
  owner : ∀ r ∈ roles, r.baseRole = .superAdmin → isOwnerRole r.toRole = true := by decide

namespace Directory

variable (d : Directory)

/-- `prisma.role.findFirst({ where: { id, orgId } })` -/
def role (orgId id : Id) : Option NamedRole := (d.roles.find id).filter fun r ↦ r.orgId = orgId

/-- The role that `isPrivilegedUser` loads. -/
def assignedRole (u : Account) : Option NamedRole := (truthy u.roleId).bind (d.role u.orgId)

def isPrivilegedUser (u : Account) : Bool :=
  privilegedPermissions.any fun p ↦
    p ∈ permissionsForUser u.role ((d.assignedRole u).map NamedRole.toRole)

variable {d} {u : Account}

theorem mem_of_assignedRole {r : NamedRole} (h : d.assignedRole u = some r) :
    r ∈ d.roles ∧ u.roleId = some r.id := by
  obtain ⟨id, hid, hr⟩ := Option.bind_eq_some_iff.mp h
  obtain ⟨hfind, -⟩ := Option.filter_eq_some_iff.mp hr
  obtain ⟨hmem, rfl⟩ := Keyed.find_eq_some.mp hfind
  exact ⟨hmem, (truthy_eq_some.mp hid).1⟩

theorem permissions_of_superAdmin (hu : u ∈ d.users) (hrole : u.role = .superAdmin) :
    permissionsForUser u.role ((d.assignedRole u).map NamedRole.toRole) = permissionKeys := by
  cases hr : d.assignedRole u with
  | none =>
    rw [hrole]
    rfl
  | some r =>
    obtain ⟨hmem, hid⟩ := mem_of_assignedRole hr
    have htier : r.baseRole = .superAdmin := (d.tiers u hu r hmem hid).symm.trans hrole
    show permissionsOfRole r.toRole = permissionKeys
    rw [permissionsOfRole, if_pos (d.owner r hmem htier)]

theorem isPrivilegedUser_of_superAdmin (hu : u ∈ d.users) (hrole : u.role = .superAdmin) :
    d.isPrivilegedUser u = true := by
  refine List.any_eq_true.mpr ⟨_, prodBypass_mem_privileged, decide_eq_true ?_⟩
  rw [permissions_of_superAdmin hu hrole]
  decide

end Directory

end Shellius.Sso
