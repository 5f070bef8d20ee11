import Shellius.Schema

/-!
# Permissions and roles

The permission catalogue of `config/permissions.js`, what `roleService` derives
from it for a user, and the production switch of `orgService`.
-/

namespace Shellius

/-! ## The catalogue -/

/-- One entry of `PERMISSIONS`. -/
structure Permission where
  key : String
  defaults : List OrgRole

/-- `M` -/
def allTiers : List OrgRole := [.member, .manager, .admin, .superAdmin]

/-- `MGR` -/
def managerUp : List OrgRole := [.manager, .admin, .superAdmin]

/-- `ADM` -/
def adminUp : List OrgRole := [.admin, .superAdmin]

/-- `SA` -/
def ownerOnly : List OrgRole := [.superAdmin]

/-- `PERMISSIONS` -/
def permissions : List Permission := [
  ⟨"customers.view", allTiers⟩,
  ⟨"customers.create", managerUp⟩,
  ⟨"customers.update", managerUp⟩,
  ⟨"customers.delete", ownerOnly⟩,
  ⟨"servers.view", allTiers⟩,
  ⟨"servers.create", managerUp⟩,
  ⟨"servers.update", managerUp⟩,
  ⟨"servers.change_environment", adminUp⟩,
  ⟨"servers.manage_credentials", adminUp⟩,
  ⟨"servers.update_connection_ip", managerUp⟩,
  ⟨"servers.onboard", managerUp⟩,
  ⟨"servers.reset_host_key", adminUp⟩,
  ⟨"servers.delete", ownerOnly⟩,
  ⟨"import.run", adminUp⟩,
  ⟨"access.request", allTiers⟩,
  ⟨"access.choose_principal", adminUp⟩,
  ⟨"access.prod_bypass", adminUp⟩,
  ⟨"access.bypass_policies", ownerOnly⟩,
  ⟨"access.break_glass", adminUp⟩,
  ⟨"access_requests.view_all", adminUp⟩,
  ⟨"access_requests.revoke_any", adminUp⟩,
  ⟨"quick_connect.use", managerUp⟩,
  ⟨"quick_connect.use_stored_identity", adminUp⟩,
  ⟨"quick_connect.save_server", managerUp⟩,
  ⟨"quick_connect.settings", adminUp⟩,
  ⟨"certificates.view_all", adminUp⟩,
  ⟨"certificates.revoke", adminUp⟩,
  ⟨"certificates.issue_direct", ownerOnly⟩,
  ⟨"ca.view", adminUp⟩,
  ⟨"ca.rotate", ownerOnly⟩,
  ⟨"policies.view", adminUp⟩,
  ⟨"policies.manage", adminUp⟩,
  ⟨"groups.view", managerUp⟩,
  ⟨"groups.manage", adminUp⟩,
  ⟨"sessions.view_all", managerUp⟩,
  ⟨"sessions.view_recordings", adminUp⟩,
  ⟨"sessions.terminate", adminUp⟩,
  ⟨"audit.view", adminUp⟩,
  ⟨"audit.export", ownerOnly⟩,
  ⟨"keystore.view", managerUp⟩,
  ⟨"keystore.test", managerUp⟩,
  ⟨"keystore.manage", adminUp⟩,
  ⟨"keystore.export_private", adminUp⟩,
  ⟨"keystore.deploy", adminUp⟩,
  ⟨"vault.use", allTiers⟩,
  ⟨"vault.hosts", allTiers⟩,
  ⟨"users.view", adminUp⟩,
  ⟨"users.view_reports", managerUp⟩,
  ⟨"users.invite", adminUp⟩,
  ⟨"users.update", adminUp⟩,
  ⟨"users.assign_role", adminUp⟩,
  ⟨"users.suspend", adminUp⟩,
  ⟨"users.reset_credentials", adminUp⟩,
  ⟨"users.revoke_sessions", adminUp⟩,
  ⟨"users.delete", ownerOnly⟩,
  ⟨"users.manage_identities", adminUp⟩,
  ⟨"users.assign_scope", adminUp⟩,
  ⟨"posture.read", allTiers⟩,
  ⟨"posture.mute", managerUp⟩,
  ⟨"posture.export", managerUp⟩,
  ⟨"posture.expected_ports", managerUp⟩,
  ⟨"posture.settings", adminUp⟩,
  ⟨"roles.view", adminUp⟩,
  ⟨"roles.manage", adminUp⟩,
  ⟨"org.update", adminUp⟩,
  ⟨"org.access_settings", ownerOnly⟩,
  ⟨"settings.sso", ownerOnly⟩,
  ⟨"settings.mfa", ownerOnly⟩,
  ⟨"settings.smtp", ownerOnly⟩,
  ⟨"settings.storage", ownerOnly⟩,
  ⟨"settings.notifications", ownerOnly⟩,
  ⟨"settings.updates", ownerOnly⟩,
  ⟨"audit.sinks", ownerOnly⟩,
  ⟨"audit.retention", ownerOnly⟩,
  ⟨"tokens.personal", allTiers⟩,
  ⟨"tokens.view_all", adminUp⟩,
  ⟨"tokens.revoke_any", adminUp⟩,
  ⟨"service_accounts.view", adminUp⟩,
  ⟨"service_accounts.manage", ownerOnly⟩]

/-- `PERMISSION_KEYS` -/
def permissionKeys : List String := permissions.map Permission.key

def defaultPermissionsFor (tier : OrgRole) : List String :=
  if tier = .superAdmin then permissionKeys
  else (permissions.filter fun p ↦ tier ∈ p.defaults).map Permission.key

/-- `normalizePermissions`: unknown keys and duplicates dropped, in catalogue
order. -/
def normalizePermissions (keys : List String) : List String :=
  permissionKeys.filter fun k ↦ k ∈ keys

/-! ## Roles -/

def isOwnerRole (role : Role) : Bool := role.isSystem && role.key == "super_admin"

def permissionsOfRole (role : Role) : List String :=
  if isOwnerRole role then permissionKeys else normalizePermissions role.permissions

/-- `permissionsForUser`, with the assigned role loaded. -/
def permissionsForUser (role : OrgRole) : Option Role → List String
  | some assigned => permissionsOfRole assigned
  | none => defaultPermissionsFor role

/-! ## The production switch -/

/-- `isProdBypassEnabled`: the organization's switch, or the setting it
replaced. -/
def isProdBypassEnabled (db : Database) (orgId : Id) : Bool :=
  match db.organization orgId with
  | none => true
  | some org => org.prodBypassEnabled.getD (org.prodApprovalBypassMinRole != some "none")

def canBypassProdApproval (db : Database) (orgId : Id) (perms : List String) : Bool :=
  if "access.prod_bypass" ∈ perms then isProdBypassEnabled db orgId else false

theorem canBypassProdApproval_eq_true {db : Database} {orgId : Id} {perms : List String} :
    canBypassProdApproval db orgId perms = true ↔
      "access.prod_bypass" ∈ perms ∧ isProdBypassEnabled db orgId = true := by
  simp [canBypassProdApproval]

end Shellius
