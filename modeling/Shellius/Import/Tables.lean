import Shellius.Import.Rows
import Shellius.Users.Accounts

/-!
# What an import writes

The tables that a bulk import writes and the functions of the services it calls:
`customerService`, `groupService`, `userService`, `serverService` and `policyService`.  The rows
have all the columns that an import can set, so that one can see which of them it leaves alone.

The body of an update has every column; `none` is `undefined`, which leaves the column as it is.
-/

namespace Shellius.Import

open Lib Action

/-! ## Rows -/

structure CustomerRow where
  id : Id
  orgId : Id
  name : String
  slug : String
  description : Option String := none

structure GroupRow where
  id : Id
  orgId : Id
  name : String
  description : Option String := none
  accessScope : AccessScope := .customers

structure ServerRow where
  id : Id
  orgId : Id
  customerId : Id
  hostname : String
  ipAddress : String
  displayName : Option String := none
  description : Option String := none
  port : Int := 22
  protocol : ServerProtocol := .ssh
  environment : Environment := .dev
  labels : List String := []
  osType : Option String := none
  osVersion : Option String := none
  dynamicIp : Bool := false
  sshUser : String := "root"
  rdpUsername : Option String := none
  rdpPasswordEncrypted : Option String := none
  cloudProvider : Option String := none
  cloudInstanceId : Option String := none
  cloudRegion : Option String := none
  authMode : ServerAuthMode := .certificate
  credentialId : Option Id := none
  isActive : Bool := true

structure PolicyRow where
  id : Id
  orgId : Id
  customerId : Option Id := none
  name : String
  description : Option String := none
  effect : PolicyEffect
  targetEnvironments : List String := []
  targetLabels : List (String × String) := []
  targetServerIds : List Id := []
  allowedPrincipals : List String := []
  maxSessionDuration : Int
  requireApproval : Bool := false
  autoApprove : Bool := false
  isActive : Bool := true
  priority : Int := 100
  osProvisioning : OsProvisioning := {}
  allowKeyDownload : Bool := false
  isBreakGlass : Bool := false
  approverGroupId : Option Id := none
  approverRoles : List String := []
  approverUserIds : List Id := []
  subjects : List PolicySubject := []
deriving DecidableEq

/-- The status of an `OnboardingCredential`, as far as a commit goes. -/
inductive OnboardingStatus
  | staged | pending
deriving DecidableEq

/-- `OnboardingCredential` -/
structure Onboarding extends Keystore.Staged where
  serverId : Option Id := none
  status : OnboardingStatus := .staged

/-! ## Jobs -/

inductive Entity
  | group | customer | user | server | policy | membership
deriving DecidableEq

/-- What planning makes of a row. -/
inductive Planned
  | create | conflict | skip | error
deriving DecidableEq

inductive Decision
  | overwrite | skip
deriving DecidableEq

inductive RowStatus
  | pending | imported | skipped | failed

structure ImportRow where
  id : Id
  jobId : Id
  entity : Entity
  rowIndex : Nat := 0
  raw : Raw
  action : Planned
  decision : Option Decision := none
  status : RowStatus := .pending
  error : Option String := none
  resultId : Option Id := none

inductive JobStatus
  | previewReady | committing | onboarding | completed | failed
deriving DecidableEq

def JobStatus.key : JobStatus → String
  | .previewReady => "preview_ready"
  | .committing => "committing"
  | .onboarding => "onboarding"
  | .completed => "completed"
  | .failed => "failed"

structure ImportJob where
  id : Id
  orgId : Id
  actorId : Option Id := none
  status : JobStatus := .previewReady

/-! ## Tables -/

/-- The tables, the invites that were sent, and how many ids have been given out. -/
structure Db where
  customers : Keyed (fun c : CustomerRow ↦ c.id) := .empty
  groups : Keyed (fun g : GroupRow ↦ g.id) := .empty
  roles : Keyed (fun r : NamedRole ↦ r.id) := .empty
  users : Keyed (fun u : ScopedUser ↦ u.id) := .empty
  memberships : List GroupMembership := []
  userCustomerScopes : List UserCustomerScope := []
  servers : Keyed (fun s : ServerRow ↦ s.id) := .empty
  policies : Keyed (fun p : PolicyRow ↦ p.id) := .empty
  sshKeys : Keyed (fun k : Keystore.SshKey ↦ k.id) := .empty
  credentials : Keyed (fun c : Keystore.Credential ↦ c.id) := .empty
  onboarding : List Onboarding := []
  jobs : Keyed (fun j : ImportJob ↦ j.id) := .empty
  rows : Keyed (fun r : ImportRow ↦ r.id) := .empty
  invites : List Id := []
  drawn : Nat := 0

/-- The groups as `userService` and `policyService` look at them. -/
def Db.scopedGroups (d : Db) : Keyed (fun g : ScopedGroup ↦ g.id) where
  rows := d.groups.rows.map fun g ↦ { id := g.id, orgId := g.orgId, accessScope := g.accessScope }
  nodup := by
    rw [List.map_map]
    exact d.groups.nodup

/-- The tables as `userService`, `roleService` and `policyService` look at them. -/
def Db.tenancy (d : Db) : Tenancy where
  roles := d.roles
  users := d.users
  groups := d.scopedGroups
  groupMemberships := d.memberships
  userCustomerScopes := d.userCustomerScopes

/-- What a commit has seen and made, by natural key. -/
structure Cache where
  customers : Dict String Id := []
  groups : Dict String Id := []
  users : Dict String Id := []
  servers : Dict String Id := []
  identities : Dict String Id := []

structure Working where
  db : Db
  cache : Cache := {}

abbrev Step (α : Type) := Action Working ApiError α

def write (f : Db → Db) : Step Unit := modify fun w ↦ { w with db := f w.db }

variable (env : Surroundings)

/-- A new id. -/
def cuid : Step Id := do
  let w ← get
  set { w with db := { w.db with drawn := w.db.drawn + 1 } }
  pure (env.cuid w.db.drawn)

/-! ## Customers -/

def isSlugChar (c : Char) : Bool := ('a' ≤ c ∧ c ≤ 'z') ∨ ('0' ≤ c ∧ c ≤ '9') ∨ c = '-'

/-- `SLUG_RE` -/
def isSlug (slug : String) : Bool :=
  3 ≤ slug.toList.length ∧ slug.toList.length ≤ 30 ∧ slug.toList.all isSlugChar

/-- One hyphen for several. -/
def collapse : List Char → List Char
  | '-' :: '-' :: cs => collapse ('-' :: cs)
  | c :: cs => c :: collapse cs
  | [] => []

/-- `slugify` of `customerService`. -/
def slugify (name : String) : String :=
  let kept := (trim (env.keystore.toLowerCase name)).toList.filter fun c ↦ isSlugChar c || isSpace c
  let hyphens := collapse (kept.map fun c ↦ if isSpace c then '-' else c)
  let front := if hyphens.head? = some '-' then hyphens.drop 1 else hyphens
  let back := if front.getLast? = some '-' then front.dropLast else front
  String.ofList (back.take 30)

def createCustomer (orgId : Id) (name : String) (slug description : Option String) :
    Step CustomerRow := do
  check (name ≠ "") ⟨400, "name is required", none⟩
  let finalSlug :=
    match truthy slug with
    | some slug => trim (env.keystore.toLowerCase slug)
    | none => slugify env name
  check (isSlug finalSlug)
    ⟨400, "slug must be 3-30 characters, lowercase letters, numbers and hyphens only", none⟩
  let id ← cuid env
  let w ← get
  check (∀ c ∈ w.db.customers.rows, ¬ (c.orgId = orgId ∧ c.slug = finalSlug))
    ⟨409, "Customer slug already exists", none⟩
  let row : CustomerRow :=
    { id, orgId, name, slug := finalSlug, description := truthy description }
  let customers ← orFail (w.db.customers.insert? row) duplicateRow
  write fun d ↦ { d with customers }
  pure row

/-- The row after `updateCustomer` of an import. -/
def CustomerRow.patch (name : String) (description : Option String) (c : CustomerRow) :
    CustomerRow :=
  { c with name := name, description := description.or c.description }

def updateCustomer (existing : CustomerRow) (name : String) (description : Option String) :
    Step CustomerRow := do
  write fun d ↦ { d with customers := d.customers.change existing.id (.patch name description) }
  pure (existing.patch name description)

/-! ## Groups -/

def createGroup (orgId : Id) (name : String) (description : Option String) : Step GroupRow := do
  check (name ≠ "") ⟨400, "name is required", none⟩
  let id ← cuid env
  let w ← get
  check (∀ g ∈ w.db.groups.rows, ¬ (g.orgId = orgId ∧ g.name = name))
    ⟨409, "Group name already exists", none⟩
  let row : GroupRow := { id, orgId, name, description := truthy description }
  let groups ← orFail (w.db.groups.insert? row) duplicateRow
  write fun d ↦ { d with groups }
  pure row

/-- The row after `updateGroup` of an import. -/
def GroupRow.patch (description : Option String) (g : GroupRow) : GroupRow :=
  { g with description := description.or g.description }

def updateGroup (existing : GroupRow) (description : Option String) : Step GroupRow := do
  write fun d ↦ { d with groups := d.groups.change existing.id (.patch description) }
  pure existing

/-- `addMember`; a membership that is there is no error for an import. -/
def addMember (orgId groupId userId : Id) : Step Unit := do
  let w ← get
  check (w.db.groups.rows.any fun g ↦ g.id = groupId ∧ g.orgId = orgId)
    ⟨404, "Group not found", none⟩
  check (w.db.users.rows.any fun u ↦ u.id = userId ∧ u.orgId = orgId)
    ⟨404, "User not found in organization", none⟩
  if ⟨groupId, userId⟩ ∈ w.db.memberships then pure ()
  else write fun d ↦ { d with memberships := d.memberships ++ [⟨groupId, userId⟩] }

/-! ## Users -/

/-- The tables that `userService` has written. -/
def Db.withAccounts (d : Db) (t : Tenancy) : Db :=
  { d with
    users := t.users
    memberships := t.groupMemberships
    userCustomerScopes := t.userCustomerScopes }

def createUser (orgId : Id) (data : UserData) (actor : Option Actor) : Step Id := do
  let id ← cuid env
  let w ← get
  let t ← lift (Shellius.createUser env.rules w.db.tenancy orgId data actor .unscoped id)
  write fun d ↦ d.withAccounts t
  pure id

def updateUser (orgId userId : Id) (data : UserData) (actor : Option Actor) : Step Unit := do
  let w ← get
  let answer := Shellius.updateUser env.rules w.db.tenancy orgId userId data actor
  write fun d ↦ d.withAccounts answer.1
  lift answer.2

/-- `sendInvite`; an import does not wait for it to arrive. -/
def sendInvite (userId : Id) : Step Unit := write fun d ↦ { d with invites := d.invites ++ [userId] }

/-! ## Servers -/

structure ServerInput where
  hostname : String
  ipAddress : String
  displayName : Option String := none
  description : Option String := none
  port : Option Int := none
  protocol : Option String := none
  environment : Option String := none
  labels : List String := []
  osType : Option String := none
  osVersion : Option String := none
  dynamicIp : Option Bool := none
  sshUser : Option String := none
  rdpUsername : Option String := none
  rdpPassword : Option String := none
  cloudProvider : Option String := none
  cloudInstanceId : Option String := none
  cloudRegion : Option String := none

/-- The value of an enumeration that a text names; anything else the database client refuses. -/
def enumValue {α : Type} (values : List (String × α)) (v : Option String) :
    Except ApiError (Option α) :=
  match v with
  | none => .ok none
  | some s => (demand (values.lookup s) databaseRequestError).map some

def protocols : List (String × ServerProtocol) := [("ssh", .ssh), ("rdp", .rdp), ("both", .both)]

def environments : List (String × Environment) :=
  [("demo", .demo), ("dev", .dev), ("staging", .staging), ("prod", .prod)]

def effects : List (String × PolicyEffect) := [("ALLOW", .allow), ("DENY", .deny)]

/-- A column of 32 bits. -/
def isInt32 (n : Int) : Bool := -2147483648 ≤ n ∧ n ≤ 2147483647

/-- The address of a server, which a server with a changing one need not have. -/
def checkAddress (dynamicIp : Bool) (ip : String) : Except ApiError Unit :=
  require (ip ≠ "" ∧ isIP ip ≠ 0 ∨ dynamicIp = true ∧ ip = "")
    ⟨400, "ipAddress must be a valid IPv4 or IPv6 address", none⟩

/-- What the database checks of a server that is written, with the values of its enumerations. -/
def checkServer (servers : Keyed fun s : ServerRow ↦ s.id) (serverId : Id) (data : ServerInput) :
    Except ApiError (Option ServerProtocol × Option Environment) := do
  let protocol ← enumValue protocols data.protocol
  let environment ← enumValue environments data.environment
  require (data.port.all isInt32) databaseRequestError
  require (∀ id ∈ data.cloudInstanceId, ∀ s ∈ servers.rows,
    ¬ (s.id ≠ serverId ∧ s.cloudInstanceId = some id)) duplicateRow
  pure (protocol, environment)

/-- The row after a write, on top of the one before or of the defaults. -/
def ServerRow.patch (data : ServerInput) (protocol : Option ServerProtocol)
    (environment : Option Environment) (s : ServerRow) : ServerRow :=
  { s with
    hostname := data.hostname
    ipAddress := trim data.ipAddress
    displayName := data.displayName.or s.displayName
    description := data.description.or s.description
    port := data.port.getD s.port
    protocol := protocol.getD s.protocol
    environment := environment.getD s.environment
    labels := data.labels
    osType := data.osType.or s.osType
    osVersion := data.osVersion.or s.osVersion
    dynamicIp := data.dynamicIp.getD s.dynamicIp
    sshUser := data.sshUser.getD s.sshUser
    rdpUsername := data.rdpUsername.or s.rdpUsername
    rdpPasswordEncrypted :=
      ((truthy data.rdpPassword).map env.keystore.encrypt).or s.rdpPasswordEncrypted
    cloudProvider := data.cloudProvider.or s.cloudProvider
    cloudInstanceId := data.cloudInstanceId.or s.cloudInstanceId
    cloudRegion := data.cloudRegion.or s.cloudRegion }

def createServer (orgId customerId : Id) (data : ServerInput) : Step Id := do
  let w ← get
  check (w.db.customers.rows.any fun c ↦ c.id = customerId ∧ c.orgId = orgId)
    ⟨400, "Customer not found in organization", none⟩
  check (data.hostname ≠ "") ⟨400, "hostname is required", none⟩
  lift (checkAddress (data.dynamicIp = some true) (trim data.ipAddress))
  let id ← cuid env
  let enums ← lift (checkServer w.db.servers id data)
  let row := ServerRow.patch env data enums.1 enums.2
    { id, orgId, customerId, hostname := data.hostname, ipAddress := "" }
  let servers ← orFail (w.db.servers.insert? row) duplicateRow
  write fun d ↦ { d with servers }
  pure id

def updateServer (existing : ServerRow) (data : ServerInput) : Step Unit := do
  let w ← get
  lift (checkAddress (data.dynamicIp.getD existing.dynamicIp) (trim data.ipAddress))
  let enums ← lift (checkServer w.db.servers existing.id data)
  write fun d ↦ { d with
    servers := d.servers.change existing.id (.patch env data enums.1 enums.2) }

/-! ## Policies -/

structure PolicyInput where
  name : String
  description : Option String := none
  effect : String
  targetEnvironments : List String := []
  allowedPrincipals : List String := []
  maxSessionDuration : Int
  requireApproval : Bool := false
  autoApprove : Bool := false
  priority : Int := 100
  allowKeyDownload : Bool := false
  approverGroupId : Option Id := none
  approverRoles : List String := []
  subjects : List PolicySubject := []

def checkPolicy (d : Db) (orgId : Id) (data : PolicyInput) : Except ApiError PolicyEffect := do
  assertPolicyRefs d.tenancy orgId
    { subjects := some data.subjects, approverRoles := some data.approverRoles
      approverGroupId := some data.approverGroupId }
  let effect ← demand (effects.lookup data.effect) databaseRequestError
  require (isInt32 data.maxSessionDuration ∧ isInt32 data.priority) databaseRequestError
  pure effect

/-- The row after a write, on top of the one before or of the defaults. -/
def PolicyRow.patch (data : PolicyInput) (effect : PolicyEffect) (p : PolicyRow) : PolicyRow :=
  { p with
    name := data.name
    description := data.description.or p.description
    effect := effect
    targetEnvironments := data.targetEnvironments
    allowedPrincipals := data.allowedPrincipals
    maxSessionDuration := data.maxSessionDuration
    requireApproval := data.requireApproval
    autoApprove := data.autoApprove
    priority := data.priority
    allowKeyDownload := data.allowKeyDownload
    approverGroupId := truthy data.approverGroupId
    approverRoles := data.approverRoles
    subjects := data.subjects.eraseDups }

/-- `create` -/
def createPolicy (orgId : Id) (data : PolicyInput) : Step Id := do
  check (data.name ≠ "") ⟨400, "name is required", none⟩
  check (0 < data.maxSessionDuration)
    ⟨400, "maxSessionDuration must be a positive integer", none⟩
  let w ← get
  let effect ← lift (checkPolicy w.db orgId data)
  let id ← cuid env
  let row := PolicyRow.patch data effect
    { id, orgId, name := data.name, effect := effect, maxSessionDuration := data.maxSessionDuration }
  let policies ← orFail (w.db.policies.insert? row) duplicateRow
  write fun d ↦ { d with policies }
  pure id

/-- `update` -/
def updatePolicy (orgId : Id) (existing : PolicyRow) (data : PolicyInput) : Step Unit := do
  let w ← get
  let effect ← lift (checkPolicy w.db orgId data)
  write fun d ↦ { d with policies := d.policies.change existing.id (.patch data effect) }

end Shellius.Import
