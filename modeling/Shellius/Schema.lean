import Mathlib.Data.List.Nodup

/-!
# The database schema

The rows of `prisma/schema.prisma`, restricted to the columns the modelled
services read or write.  A table is a list of rows; a `findFirst` is a
`List.find?` and a `findMany` a `List.filter`, in table order.  Where a query
leaves the order of rows open, the order of the list stands for whatever order
the database happens to return.

Columns keep their Prisma names.  `Json` columns appear in the shape their Joi
schema lets through: `labels` is an array of strings or something else
(`none`), `targetLabels` an object of strings or something else.
-/

namespace Shellius

/-- A `cuid()` primary key. -/
abbrev Id := String

/-- An instant, as `Date.getTime()` gives it. -/
abbrev Millis := Int

/-- The error every service throws. -/
structure ApiError where
  statusCode : Nat
  message : String
  code : Option String := none
deriving DecidableEq

/-! ## Enumerations -/

/-- Base tier of a role. -/
inductive OrgRole where
  | superAdmin | admin | manager | member
deriving DecidableEq

/-- The key a tier has in the database, which ROLE policy subjects name. -/
def OrgRole.key : OrgRole → String
  | .superAdmin => "super_admin"
  | .admin => "admin"
  | .manager => "manager"
  | .member => "member"

inductive UserStatus where
  | active | invited | suspended | deactivated | pendingVerification | deleted
deriving DecidableEq

inductive UserKind where
  | human | service
deriving DecidableEq

inductive Environment where
  | demo | dev | staging | prod
deriving DecidableEq

inductive ServerProtocol where
  | ssh | rdp | both
deriving DecidableEq

inductive ServerAuthMode where
  | certificate | credential
deriving DecidableEq

inductive PolicyEffect where
  | allow | deny
deriving DecidableEq

/-- Position in the Postgres enum, which is what `orderBy: { effect: 'asc' }`
sorts on. -/
def PolicyEffect.rank : PolicyEffect → Int
  | .allow => 0
  | .deny => 1

inductive SubjectType where
  | user | group | role
deriving DecidableEq

inductive AccessRequestStatus where
  | pending | approved | denied | expired | revoked
deriving DecidableEq

/-- Protocol of an access request. -/
inductive Protocol where
  | ssh | rdp

inductive CertStatus where
  | active | revoked | expired
deriving DecidableEq

/-! ## Rows -/

/-- `Organization`, with the two keys of `settings.access` that decide whether
production approval can be skipped. -/
structure Organization where
  id : Id
  prodBypassEnabled : Option Bool := none
  prodApprovalBypassMinRole : Option String := none

structure Role where
  id : Id
  orgId : Id
  key : String
  baseRole : OrgRole
  permissions : List String := []
  isSystem : Bool := false
deriving DecidableEq

structure User where
  id : Id
  orgId : Id
  email : String := ""
  name : String := ""
  role : OrgRole := .member
  roleId : Option Id := none
  status : UserStatus := .active
  kind : UserKind := .human
  managerId : Option Id := none
  deletedAt : Option Millis := none
  jitUid : Option Nat := none
  sessionsValidFrom : Option Millis := none
  mfaTotpEnabled : Bool := false
  mfaTotpSecret : Option String := none
  mfaEmailEnabled : Bool := false
  mfaPreferredMethod : Option String := none
deriving DecidableEq

structure Group where
  id : Id
  orgId : Id

structure GroupMembership where
  groupId : Id
  userId : Id
deriving DecidableEq

structure Credential where
  id : Id
  username : String

structure Server where
  id : Id
  orgId : Id
  customerId : Id
  environment : Environment := .dev
  protocol : ServerProtocol := .ssh
  labels : Option (List String) := some []
  authMode : ServerAuthMode := .certificate
  credentialId : Option Id := none
  sshUser : String := "root"
  rdpUsername : Option String := none
  agentId : Option Id := none
  agentLastSeen : Option Millis := none
  provisionStatus : String := "pending"
deriving DecidableEq

/-- The `osProvisioning` block of a policy, as `osProvisioningSchema` validates
it. -/
structure OsProvisioning where
  linuxGroups : List String := []
  «sudo» : Bool := false
  aclReadPaths : List String := []
  aclRecursive : Bool := false
  hardCutoff : Bool := false
deriving DecidableEq

structure PolicySubject where
  subjectType : SubjectType
  subjectId : String
deriving DecidableEq

structure AccessPolicy where
  id : Id
  orgId : Id
  customerId : Option Id := none
  name : String := ""
  effect : PolicyEffect := .allow
  targetEnvironments : List Environment := []
  targetLabels : Option (List (String × String)) := some []
  targetServerIds : List Id := []
  allowedPrincipals : List String := []
  maxSessionDuration : Int
  requireApproval : Bool := false
  autoApprove : Bool := false
  isActive : Bool := true
  priority : Int := 100
  osProvisioning : OsProvisioning := {}
  isBreakGlass : Bool := false
  approverGroupId : Option Id := none
  approverRoles : List String := []
  approverUserIds : List Id := []
  subjects : List PolicySubject := []

/-! ## The organization data -/

/-- The tables that say who may reach what, with their primary keys.  Requests,
certificates and challenges are kept apart: they are what the services create. -/
structure Database where
  organizations : List Organization := []
  roles : List Role := []
  users : List User := []
  groups : List Group := []
  groupMemberships : List GroupMembership := []
  credentials : List Credential := []
  servers : List Server := []
  accessPolicies : List AccessPolicy := []
  /-- `Server.id` is a primary key. -/
  serverKey : (servers.map Server.id).Nodup := by decide
  /-- A `cuid()` is never the empty string. -/
  serverTruthy : ∀ s ∈ servers, s.id ≠ "" := by decide
  /-- `AccessPolicy.id` is a primary key. -/
  policyKey : (accessPolicies.map AccessPolicy.id).Nodup := by decide

namespace Database

variable (db : Database)

/-- `prisma.server.findFirst({ where: { id, orgId } })` -/
def server (orgId serverId : Id) : Option Server :=
  db.servers.find? fun s ↦ s.id = serverId ∧ s.orgId = orgId

/-- `prisma.user.findFirst({ where: { id, orgId } })` -/
def user (orgId userId : Id) : Option User :=
  db.users.find? fun u ↦ u.id = userId ∧ u.orgId = orgId

/-- `prisma.organization.findUnique({ where: { id } })` -/
def organization (orgId : Id) : Option Organization :=
  db.organizations.find? fun o ↦ o.id = orgId

/-- The `assignedRole` relation of a user. -/
def assignedRole (u : User) : Option Role :=
  u.roleId.bind fun r ↦ db.roles.find? fun x ↦ x.id = r

/-- The `manager` relation of a user. -/
def manager (u : User) : Option User :=
  u.managerId.bind fun m ↦ db.users.find? fun x ↦ x.id = m

/-- The `credential` relation of a server. -/
def credential (s : Server) : Option Credential :=
  s.credentialId.bind fun c ↦ db.credentials.find? fun x ↦ x.id = c

variable {db}

theorem server_spec {orgId serverId : Id} {s : Server} (h : db.server orgId serverId = some s) :
    s ∈ db.servers ∧ s.id = serverId ∧ s.orgId = orgId := by
  have hp := List.find?_some h
  simp only [decide_eq_true_eq] at hp
  exact ⟨List.mem_of_find?_eq_some h, hp⟩

theorem server_of_mem {s : Server} (h : s ∈ db.servers) : db.server s.orgId s.id = some s := by
  cases hf : db.server s.orgId s.id with
  | none => exact absurd (List.find?_eq_none.mp hf s h) (by simp)
  | some t =>
    obtain ⟨ht, hid, -⟩ := server_spec hf
    rw [List.inj_on_of_nodup_map db.serverKey ht h hid]

theorem policy_ext {p q : AccessPolicy} (hp : p ∈ db.accessPolicies) (hq : q ∈ db.accessPolicies)
    (h : p.id = q.id) : p = q := List.inj_on_of_nodup_map db.policyKey hp hq h

end Database

end Shellius
