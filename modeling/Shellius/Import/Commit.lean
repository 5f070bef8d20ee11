import Shellius.Import.Tables

/-!
# Committing an import

`importService.commitImportJob` goes through the rows of a job, kind by kind, and for each one that
is to be imported creates or overwrites a record.  References are looked up among what the commit
has come across so far and then in the tables.  What goes wrong with a row is noted on the row, and
what the row has written by then stays.
-/

namespace Shellius.Import

open Lib Action

/-- `err.message?.slice(0, 500)` -/
def shortMessage (e : ApiError) : String := String.ofList (slice 500 e.message.toList)

def markRow (rowId : Id) (f : ImportRow → ImportRow) : Step Unit :=
  write fun d ↦ { d with rows := d.rows.change rowId f }

def remember (f : Cache → Cache) : Step Unit := modify fun w ↦ { w with cache := f w.cache }

variable (env : Surroundings)

/-! ## Customers and groups -/

def Db.customerOf (d : Db) (orgId : Id) (slug : Option String) (name : String) :
    Option CustomerRow :=
  d.customers.rows.find? fun c ↦ c.orgId = orgId ∧ (slug = some c.slug ∨ c.name = name)

def saveCustomer (orgId : Id) (raw : Raw) (overwrite : Bool) : Step CustomerRow := do
  let name := str (raw.get "name")
  let slug := truthy (some (lower env (raw.get "slug")))
  let description := text (raw.get "description")
  let w ← get
  match w.db.customerOf orgId slug name with
  | some cust => if overwrite then updateCustomer cust name description else pure cust
  | none => createCustomer env orgId name slug description

def commitCustomer (orgId : Id) (row : ImportRow) (overwrite : Bool) : Step Unit := do
  let cust ← saveCustomer env orgId row.raw overwrite
  remember fun c ↦ { c with
    customers := (c.customers.set (lowerText env cust.slug) cust.id).set (lowerText env cust.name)
      cust.id }
  markRow row.id fun r ↦ { r with resultId := some cust.id }

def Db.groupNamed (d : Db) (orgId : Id) (name : String) : Option GroupRow :=
  d.groups.rows.find? fun g ↦ g.orgId = orgId ∧ g.name = name

def saveGroup (orgId : Id) (raw : Raw) (overwrite : Bool) : Step GroupRow := do
  let name := str (raw.get "name")
  let description := text (raw.get "description")
  let w ← get
  match w.db.groupNamed orgId name with
  | some group => if overwrite then updateGroup group description else pure group
  | none => createGroup env orgId name description

def commitGroup (orgId : Id) (row : ImportRow) (overwrite : Bool) : Step Unit := do
  let group ← saveGroup env orgId row.raw overwrite
  remember fun c ↦ { c with
    groups := c.groups.set (lower env (row.raw.get "name")) group.id }
  markRow row.id fun r ↦ { r with resultId := some group.id }

/-! ## Users -/

def Db.userWithEmail (d : Db) (orgId : Id) (email : String) : Option ScopedUser :=
  d.users.rows.find? fun u ↦ u.orgId = orgId ∧ u.email = email

def userNamed (w : Working) (orgId : Id) (email : String) : Option Id :=
  truthy ((truthy (w.cache.users.get email)).or ((w.db.userWithEmail orgId email).map (·.id)))

/-- The e-mail address of the manager that a row names. -/
def managerEmail (raw : Raw) : String := lower env (raw.either ["manager", "managerEmail"])

def resolveManagerId (w : Working) (orgId : Id) (raw : Raw) : Option Id :=
  if managerEmail env raw = "" then none
  else (w.cache.users.get (managerEmail env raw)).or
    ((w.db.userWithEmail orgId (managerEmail env raw)).map (·.id))

/-- The body that a row makes for `userService`. -/
def userInput (raw : Raw) (managerId : Option Id) : UserData where
  name := some (str (raw.get "name"))
  role := text (raw.get "role")
  managerId := managerId.map some

/-- A new user, and the invite, if the row does not say otherwise. -/
def inviteUser (orgId : Id) (raw : Raw) (managerId : Option Id) (actor : Option Actor) :
    Step Id := do
  let userId ← createUser env orgId
    { userInput raw managerId with
      email := some (lower env (raw.get "email")), status := some .invited } actor
  if bool env (raw.get "sendInvite") true then sendInvite userId
  pure userId

def saveUser (orgId : Id) (raw : Raw) (overwrite : Bool) (actor : Option Actor) : Step Id := do
  let w ← get
  let managerId := resolveManagerId env w orgId raw
  match w.db.userWithEmail orgId (lower env (raw.get "email")) with
  | some user =>
    if overwrite then do
      updateUser env orgId user.id (userInput raw managerId) actor
      pure user.id
    else pure user.id
  | none => inviteUser env orgId raw managerId actor

def commitUser (orgId : Id) (row : ImportRow) (overwrite : Bool) (actor : Option Actor) :
    Step Unit := do
  let userId ← saveUser env orgId row.raw overwrite actor
  remember fun c ↦ { c with users := c.users.set (lower env (row.raw.get "email")) userId }
  markRow row.id fun r ↦ { r with resultId := some userId }

/-! ## Servers -/

def addressColumns : List String := ["ipAddress", "ip"]
def customerColumns : List String := ["customer", "customerSlug", "customerName"]

def resolveCustomerId (w : Working) (orgId : Id) (custRef : String) : Option Id :=
  (w.cache.customers.get (lowerText env custRef)).or
    ((w.db.customers.rows.find? fun c ↦ c.orgId = orgId ∧
      (c.slug = lowerText env custRef ∨
        env.rules.insensitiveEquals c.name (lowerText env custRef))).map (·.id))

/-- The RDP password that was encrypted at upload; `safeDecrypt` -/
def rdpPassword (raw : Raw) : Option String :=
  match text (raw.get "rdpPasswordEnc") with
  | none => none
  | some secret => (env.keystore.decrypt secret).toOption

/-- The body that a row makes for `serverService`. -/
def serverInput (raw : Raw) : ServerInput where
  hostname := str (raw.get "hostname")
  ipAddress := str (raw.either addressColumns)
  displayName := text (raw.get "displayName")
  description := text (raw.get "description")
  port := int (raw.get "port")
  protocol := truthy (some (lower env (raw.get "protocol")))
  environment := truthy (some (lower env (raw.get "environment")))
  labels := labelsToArray env (raw.get "labels")
  osType := text (raw.get "osType")
  osVersion := text (raw.get "osVersion")
  dynamicIp := if bool env (raw.get "dynamicIp") then some true else none
  sshUser := text (raw.get "sshUser")
  rdpUsername := text (raw.get "rdpUsername")
  rdpPassword := rdpPassword env raw
  cloudProvider := truthy (some (lower env (raw.get "cloudProvider")))
  cloudInstanceId := text (raw.get "cloudInstanceId")
  cloudRegion := text (raw.get "cloudRegion")

def Db.serverNamed (d : Db) (orgId : Id) (hostname : String) : Option ServerRow :=
  d.servers.rows.find? fun s ↦ s.orgId = orgId ∧ s.hostname = hostname

def saveServer (orgId : Id) (raw : Raw) (overwrite : Bool) : Step Id := do
  let w ← get
  let custRef := str (raw.either customerColumns)
  let customerId ← orFail (truthy (resolveCustomerId env w orgId custRef))
    (Keystore.plainError ("Customer \"" ++ custRef ++ "\" could not be resolved"))
  match w.db.serverNamed orgId (str (raw.get "hostname")) with
  | some server =>
    if overwrite then do
      updateServer env server (serverInput env raw)
      pure server.id
    else pure server.id
  | none => createServer env orgId customerId (serverInput env raw)

def linkCredentials (jobId : Id) (hostname : String) (serverId : Id) (o : Onboarding) :
    Onboarding :=
  if o.jobId = jobId ∧ o.serverRef = hostname ∧ o.status = .staged then
    { o with serverId := some serverId, status := .pending }
  else o

def ServerRow.keystore (s : ServerRow) : Keystore.Server where
  id := s.id
  orgId := s.orgId
  authMode := s.authMode
  credentialId := s.credentialId

/-- The tables as the Keystore looks at them, with the commit as the only one. -/
def Working.vault (job : ImportJob) (w : Working) : Keystore.Store where
  sshKeys := w.db.sshKeys
  credentials := w.db.credentials
  servers :=
    { rows := w.db.servers.rows.map ServerRow.keystore
      nodup := by
        rw [List.map_map]
        exact w.db.servers.nodup }
  staged := w.db.onboarding.map (·.toStaged)
  commits := fun _ ↦
    { orgId := job.orgId, jobId := job.id, actorId := job.actorId, identities := w.cache.identities }

def ServerRow.withLogin (s : Keystore.Store) (row : ServerRow) : ServerRow :=
  { row with
    authMode := ((s.servers.find row.id).map (·.authMode)).getD row.authMode
    credentialId :=
      match s.servers.find row.id with
      | some server => server.credentialId
      | none => row.credentialId }

theorem ServerRow.withLogin_id (s : Keystore.Store) (row : ServerRow) :
    (row.withLogin s).id = row.id := rfl

def Working.withVault (s : Keystore.Store) (w : Working) : Working where
  db := { w.db with
    sshKeys := s.sshKeys
    credentials := s.credentials
    servers := w.db.servers.update (.withLogin s) (ServerRow.withLogin_id s) }
  cache := { w.cache with identities := (s.commits 0).identities }

/-- `materializeIdentity`, in a commit of a job. -/
def materializeIdentity (job : ImportJob) (hostname : String) (serverId : Id) : Step Unit := do
  let keyId ← cuid env
  let credentialId ← cuid env
  zoom (Working.vault job) Working.withVault
    (Keystore.materializeIdentity env.keystore 0 hostname serverId
      { keyId, credentialId, generated := .error databaseRequestError, suffix := fun _ ↦ "" })

def commitServer (job : ImportJob) (row : ImportRow) (overwrite : Bool) : Step Unit := do
  let hostname := str (row.raw.get "hostname")
  let serverId ← saveServer env job.orgId row.raw overwrite
  remember fun c ↦ { c with
    servers := c.servers.set (lower env (row.raw.get "hostname")) serverId }
  markRow row.id fun r ↦ { r with resultId := some serverId }
  write fun d ↦ { d with onboarding := d.onboarding.map (linkCredentials job.id hostname serverId) }
  materializeIdentity env job hostname serverId

/-! ## Policies and memberships -/

def groupNamed (w : Working) (orgId : Id) (name : String) : Option Id :=
  truthy ((truthy (w.cache.groups.get (lowerText env name))).or
    ((w.db.groupNamed orgId name).map (·.id)))

def roleKeys (w : Working) (orgId : Id) (column : String) (names : List String) :
    Except ApiError (List String) :=
  names.mapM fun name ↦ (demand (resolveRole env.rules w.db.tenancy orgId name)
    (Keystore.plainError ("Unknown role \"" ++ name ++ "\" in " ++ column))).map (·.key)

/-- The subjects that a row names; a group or a user that is not there is left out. -/
def policySubjects (w : Working) (orgId : Id) (raw : Raw) :
    Except ApiError (List PolicySubject) := do
  let groups := (list env (raw.get "subjectGroups")).filterMap (groupNamed env w orgId)
  let roles ← roleKeys env w orgId "subjectRoles" (list env (raw.get "subjectRoles"))
  let users := (list env (raw.get "subjectUsers")).filterMap fun email ↦
    userNamed w orgId (lowerText env email)
  pure (groups.map (⟨.group, ·⟩) ++ roles.map (⟨.role, ·⟩) ++ users.map (⟨.user, ·⟩))

/-- The approver group that a row names; one that is not there is none. -/
def approverGroup (w : Working) (orgId : Id) (raw : Raw) : Option Id :=
  (text (raw.get "approverGroup")).bind (groupNamed env w orgId)

/-- The body that a row makes for `policyService`. -/
def policyInput (w : Working) (orgId : Id) (raw : Raw) : Except ApiError PolicyInput := do
  let subjects ← policySubjects env w orgId raw
  let approverRoles ← roleKeys env w orgId "approverRoles" (list env (raw.get "approverRoles"))
  pure {
    name := str (raw.get "name")
    description := text (raw.get "description")
    effect := env.toUpperCase ((text (raw.get "effect")).getD "ALLOW")
    targetEnvironments := (list env (raw.get "targetEnvironments")).map (lowerText env)
    allowedPrincipals := list env (raw.get "allowedPrincipals")
    maxSessionDuration := (int (raw.get "maxSessionDuration")).getD 3600
    requireApproval := bool env (raw.get "requireApproval")
    autoApprove := bool env (raw.get "autoApprove")
    priority := (int (raw.get "priority")).getD 100
    allowKeyDownload := bool env (raw.get "allowKeyDownload")
    approverGroupId := approverGroup env w orgId raw
    approverRoles, subjects }

def Db.policyNamed (d : Db) (orgId : Id) (name : String) : Option PolicyRow :=
  d.policies.rows.find? fun p ↦ p.orgId = orgId ∧ p.name = name

def savePolicy (orgId : Id) (raw : Raw) (overwrite : Bool) : Step Id := do
  let w ← get
  let data ← lift (policyInput env w orgId raw)
  match w.db.policyNamed orgId data.name with
  | some policy =>
    if overwrite then do
      updatePolicy orgId policy data
      pure policy.id
    else pure policy.id
  | none => createPolicy env orgId data

def commitPolicy (orgId : Id) (row : ImportRow) (overwrite : Bool) : Step Unit := do
  let policyId ← savePolicy env orgId row.raw overwrite
  markRow row.id fun r ↦ { r with resultId := some policyId }

def commitMembership (orgId : Id) (row : ImportRow) : Step Unit := do
  let w ← get
  let groupName := str (row.raw.either ["group", "groupName"])
  let email := lower env (row.raw.either ["user", "email"])
  let groupId ← orFail (groupNamed env w orgId groupName)
    (Keystore.plainError ("Group \"" ++ groupName ++ "\" not found"))
  let userId ← orFail (userNamed w orgId email)
    (Keystore.plainError ("User \"" ++ email ++ "\" not found"))
  addMember orgId groupId userId

/-! ## Rows and jobs -/

/-- `ROW_PERMISSIONS` -/
def rowPermission (entity : Entity) (overwrite : Bool) : String :=
  match entity with
  | .customer => if overwrite then "customers.update" else "customers.create"
  | .group => "groups.manage"
  | .user => if overwrite then "users.update" else "users.invite"
  | .server => if overwrite then "servers.update" else "servers.create"
  | .policy => "policies.manage"
  | .membership => "groups.manage"

def ImportRow.overwrites (row : ImportRow) : Bool :=
  row.action = .conflict ∧ row.decision = some .overwrite

/-- The work of a row, by its kind. -/
def commitEntity (job : ImportJob) (row : ImportRow) (actor : Option Actor) : Step Unit := do
  check (holds actor (rowPermission row.entity row.overwrites))
    (Keystore.plainError
      ("You don\x27t have the " ++ rowPermission row.entity row.overwrites ++ " permission"))
  match row.entity with
  | .customer => commitCustomer env job.orgId row row.overwrites
  | .group => commitGroup env job.orgId row row.overwrites
  | .user => commitUser env job.orgId row row.overwrites actor
  | .server => commitServer env job row row.overwrites
  | .policy => commitPolicy env job.orgId row row.overwrites
  | .membership => commitMembership env job.orgId row

/-- What a row is marked with in the end. -/
def outcome : Except ApiError Unit → ImportRow → ImportRow
  | .ok _, r => { r with status := .imported }
  | .error e, r => { r with status := .failed, error := some (shortMessage e) }

def commitRow (job : ImportJob) (row : ImportRow) (actor : Option Actor) : Step Unit :=
  match row.action with
  | .error => markRow row.id fun r ↦ { r with status := .failed }
  | .skip => markRow row.id fun r ↦ { r with status := .skipped }
  | action =>
    if action = .conflict ∧ row.decision ≠ some .overwrite then
      markRow row.id fun r ↦ { r with status := .skipped }
    else do
      let result ← attempt (commitEntity env job row actor)
      markRow row.id (outcome result)

/-- `ORDER` -/
def order : List Entity := [.group, .customer, .user, .server, .policy, .membership]

def Db.rowsInOrder (d : Db) (jobId : Id) : List ImportRow :=
  order.flatMap fun entity ↦
    (d.rows.rows.filter fun r ↦ r.jobId = jobId ∧ r.entity = entity).mergeSort
      fun r r' ↦ r.rowIndex ≤ r'.rowIndex

def setJobStatus (jobId : Id) (status : JobStatus) : Step Unit :=
  write fun d ↦ { d with jobs := d.jobs.change jobId fun j ↦ { j with status } }

/-- What is left of the staged credentials at the end of a commit. -/
def sweepCredentials (jobId : Id) : Step Unit :=
  write fun d ↦ { d with
    onboarding := d.onboarding.filter fun o ↦ ¬ (o.jobId = jobId ∧ o.status = .staged) }

def commitImportJob (orgId jobId : Id) (actor : Option Actor) : Step Unit := do
  let w ← get
  let job ← orFail ((w.db.jobs.find jobId).filter fun j ↦ j.orgId = orgId)
    (Keystore.plainError "Import job not found")
  check (job.status = .previewReady ∨ job.status = .failed)
    (Keystore.plainError ("Import job cannot be committed (status: " ++ job.status.key ++ ")"))
  setJobStatus jobId .committing
  (w.db.rowsInOrder jobId).forM fun row ↦ commitRow env job row actor
  sweepCredentials jobId
  let v ← get
  setJobStatus jobId
    (if v.db.onboarding.any fun o ↦ o.jobId = jobId ∧ o.status = .pending then .onboarding
    else .completed)

end Shellius.Import
