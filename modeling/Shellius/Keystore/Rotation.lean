import Shellius.Lib.Checks
import Shellius.Lib.History
import Shellius.Lib.Keyed
import Shellius.Lib.Pool
import Shellius.Scope
import Shellius.Text

/-!
# Rotating a key

`keyDeploymentService` pushes a key to servers, removes it from them, or rotates it: on each
server the new key is deployed, a login with it is tried, and the old key is removed; when all
servers are done the identities that use the old key are repointed to the new one.

A batch has one row for each of its servers, and each row is worked off by itself, as often as
it is retried and by several workers at once if it comes to that.  The steps on a server and
those on the rows may fail one by one.

The authorized keys of a server are a list of lines here, and what the scripts do to them is
what they do to a file whose lines are complete.
-/

namespace Shellius.Rotation

open Lib

/-! ## Rows -/

structure SshKey where
  id : Id
  orgId : Id
  ownerId : Option Id := none
  publicKey : String

/-- `Credential`, with its key. -/
structure Identity where
  id : Id
  orgId : Id
  ownerId : Option Id := none
  username : String := "root"
  sshKeyId : Option Id := none

inductive Action where
  | deploy | remove | rotate
deriving DecidableEq

inductive Status where
  | pending | running | success | failed
deriving DecidableEq

inductive DeployAuth where
  | server | credential | certificate

/-- `KeyDeployment`; a batch has one row for a server, which stands for its key. -/
structure Deployment where
  serverId : Id
  orgId : Id
  batchId : String
  sshKeyId : Id
  action : Action
  targetUser : String
  authMode : DeployAuth
  authCredentialId : Option Id := none
  status : Status := .pending

structure RotateOpts where
  oldSshKeyId : Id
  updateCredentials : Bool := false

/-- What is kept of a batch in Redis. -/
structure BatchMeta where
  useSudo : Bool := false
  action : Action
  rotate : Option RotateOpts := none

structure Database where
  sshKeys : Keyed SshKey.id := .empty
  credentials : Keyed Identity.id := .empty
  servers : Keyed Server.id := .empty

/-! ## Making a batch -/

/-- How the deployments of a batch log in. -/
inductive AuthChoice where
  | server
  | credential (credentialId : Id)

/-- The parameters of `createBatch`. -/
structure Params where
  sshKeyId : Id
  serverIds : List Id
  action : Action
  targetUser : Option String := none
  auth : AuthChoice := .server
  useSudo : Bool := false
  rotate : Option RotateOpts := none

namespace Database

variable (d : Database) (orgId : Id)

/-- `prisma.sshKey.findFirst({ where: { id, orgId, ownerId: null } })` -/
def orgKey (id : Id) : Option SshKey :=
  (d.sshKeys.find id).filter fun k ↦ k.orgId = orgId ∧ k.ownerId = none

/-- `prisma.credential.findFirst({ where: { id, orgId, ownerId: null } })` -/
def orgCredential (id : Id) : Option Identity :=
  (d.credentials.find id).filter fun c ↦ c.orgId = orgId ∧ c.ownerId = none

def batchServers (serverIds : List Id) : Keyed Server.id :=
  d.servers.filter fun s ↦ s.id ∈ serverIds ∧ s.orgId = orgId

end Database

/-- The credential that the deployments log in with, if they do. -/
def authCredential (d : Database) (orgId : Id) : AuthChoice → Except ApiError (Option Identity)
  | .server => .ok none
  | .credential credentialId => do
      require (credentialId ≠ "")
        ⟨400, "auth.credentialId is required when auth.mode is \"credential\"", none⟩
      let c ← demand (d.orgCredential orgId credentialId)
        (⟨404, "auth.credentialId not found", none⟩ : ApiError)
      pure (some c)

def deploymentRow (d : Database) (orgId : Id) (batchId : String) (params : Params)
    (credential : Option Identity) (server : Server) : Deployment where
  serverId := server.id
  orgId
  batchId
  sshKeyId := params.sshKeyId
  action := params.action
  targetUser :=
    let default : Option String := match credential with
      | some c => some c.username
      | none =>
        if server.authMode = .credential then
          (server.credentialId.bind d.credentials.find).map Identity.username
        else some server.sshUser
    (truthy params.targetUser).getD ((truthy default).getD "root")
  authMode := match credential with
    | some _ => .credential
    | none => if server.authMode = .credential then .server else .certificate
  authCredentialId := credential.map Identity.id

def deploymentRows (d : Database) (orgId : Id) (batchId : String) (params : Params)
    (credential : Option Identity) : Keyed Deployment.serverId where
  rows := (d.batchServers orgId params.serverIds).rows.map
    (deploymentRow d orgId batchId params credential)
  nodup := by
    rw [List.map_map]
    exact (d.batchServers orgId params.serverIds).nodup

structure Batch where
  deployments : Keyed Deployment.serverId
  batchMeta : BatchMeta

def createBatch (d : Database) (orgId : Id) (batchId : String) (params : Params) (scope : Scope) :
    Except ApiError Batch := do
  require (params.serverIds ≠ []) ⟨400, "serverIds must be a non-empty array", none⟩
  require (params.sshKeyId ≠ "") ⟨400, "sshKeyId is required", none⟩
  let _ ← demand (d.orgKey orgId params.sshKeyId) (⟨404, "Key not found", none⟩ : ApiError)
  let rotate ← (if params.action = .rotate then do
    let opts ← demand (params.rotate.filter fun o ↦ o.oldSshKeyId ≠ "")
      (⟨400, "rotate.oldSshKeyId is required for action=rotate", none⟩ : ApiError)
    let _ ← demand (d.orgKey orgId opts.oldSshKeyId)
      (⟨404, "rotate.oldSshKeyId not found", none⟩ : ApiError)
    pure (some opts)
  else pure none)
  let credential ← authCredential d orgId params.auth
  require (∀ id ∈ params.serverIds, ((d.batchServers orgId params.serverIds).find id).isSome)
    ⟨400, "Servers not found in this organization: " ++ ", ".intercalate
      (params.serverIds.filter fun id ↦
        ((d.batchServers orgId params.serverIds).find id).isNone), none⟩
  require (∀ s ∈ (d.batchServers orgId params.serverIds).rows, inScope scope s = true)
    ⟨404, "Server not found", none⟩
  pure
    { deployments := deploymentRows d orgId batchId params credential
      batchMeta := { useSudo := params.useSudo, action := params.action, rotate } }

/-! ## Working a batch off -/

/-- What has happened to a batch. -/
inductive Note
  | verified (serverId : Id)
  | removed (serverId : Id)
  | succeeded (serverId : Id)
  | locked (call : Nat)
  | repointed
deriving DecidableEq

/-- The tables, what Redis keeps of the batch, and the authorized keys of the servers. -/
structure Store extends Database, Batch where
  batchKept : Bool := true
  repointLock : Bool := false
  authorizedKeys : Id → List String
  log : List Note := []

/-- What a call does next; a call of `processDeployment` is about the row of a server. -/
inductive Point
  | /-- `processDeployment` reads the row. -/
    readRow
  | markRunning (row : Deployment)
  | readServer (row : Deployment)
  | loadMeta (row : Deployment)
  | findKeys (row : Deployment) (batchMeta : BatchMeta)
  | deploy (row : Deployment) (batchMeta : BatchMeta) (newKey oldKey : SshKey)
  | /-- `verifyNewKeyLogin` -/
    verify (row : Deployment) (batchMeta : BatchMeta) (newKey oldKey : SshKey)
  | remove (row : Deployment) (batchMeta : BatchMeta) (oldKey : SshKey)
  | /-- It finds the key that is deployed or removed, and runs the script. -/
    single (row : Deployment) (batchMeta : BatchMeta)
  | /-- `finishRow` of a success. -/
    succeed (row : Deployment) (batchMeta : BatchMeta)
  | /-- `finishRow` of a failure. -/
    fail (row : Deployment)
  | /-- `maybeFinalizeRotateBatch` reads the rows. -/
    readRows (row : Deployment) (batchMeta : BatchMeta)
  | lock (row : Deployment) (oldSshKeyId newSshKeyId : Id)
  | repoint (row : Deployment) (oldSshKeyId newSshKeyId : Id)
  | /-- `retryDeployment` reads the row. -/
    readRetry
  | setPending

structure Call where
  serverId : Id
  point : Point

inductive Operation
  | processDeployment
  | retryDeployment

/-- What a step gets from outside: whether it went well, and whether a script that did not had
done its work. -/
structure Outside where
  ok : Bool := true
  applied : Bool := false

inductive Change
  | /-- `reapStaleRunning`, on some of the rows. -/
    reap (serverIds : List Id)
  | expireMeta
  | expireLock

def SshKey.line (key : SshKey) : String := trim key.publicKey

/-- The deploy script: append if missing. -/
def deployTo (line : String) (keys : List String) : List String :=
  if line ∈ keys then keys else keys ++ [line]

/-- The remove script: filter out. -/
def removeFrom (line : String) (keys : List String) : List String := keys.filter (· ≠ line)

namespace Store

variable (s : Store)

/-- `prisma.sshKey.findFirst({ where: { id, orgId } })` -/
def key (orgId id : Id) : Option SshKey := (s.sshKeys.find id).filter fun k ↦ k.orgId = orgId

def setStatus (serverId : Id) (status : Status) : Store :=
  { s with
    deployments := s.deployments.update
      (fun row ↦ if row.serverId = serverId then { row with status } else row) (by
        intro row
        split <;> rfl) }

def setKeys (serverId : Id) (f : List String → List String) : Store :=
  { s with
    authorizedKeys := Function.update s.authorizedKeys serverId (f (s.authorizedKeys serverId)) }

/-- `credential.updateMany` -/
def repoint (orgId oldSshKeyId newSshKeyId : Id) : Store :=
  { s with
    credentials := s.credentials.update
      (fun c ↦ if c.orgId = orgId ∧ c.sshKeyId = some oldSshKeyId ∧ c.ownerId = none then
        { c with sshKeyId := some newSshKeyId } else c) (by
        intro c
        split <;> rfl) }

def loadMeta : Option BatchMeta := if s.batchKept then some s.batchMeta else none

/-- A note is written down. -/
def record (n : Note) : Store := { s with log := n :: s.log }

end Store

section

variable (orgId : Id)

def effect (s : Store) (i : Nat) (out : Outside) (k : Call) : Store :=
  match k.point with
  | .markRunning _ => s.setStatus k.serverId .running
  | .deploy _ _ newKey _ =>
    if out.ok ∨ out.applied then s.setKeys k.serverId (deployTo newKey.line) else s
  | .verify _ _ newKey _ =>
    if out.ok ∧ newKey.line ∈ s.authorizedKeys k.serverId then s.record (.verified k.serverId)
    else s
  | .remove _ _ oldKey =>
    (if out.ok ∨ out.applied then s.setKeys k.serverId (removeFrom oldKey.line) else s).record
      (.removed k.serverId)
  | .single row _ =>
    match s.key row.orgId row.sshKeyId with
    | none => s
    | some key =>
      if out.ok ∨ out.applied then
        s.setKeys k.serverId
          (if row.action = .remove then removeFrom key.line else deployTo key.line)
      else s
  | .succeed _ _ =>
    -- a write that fails is logged, and the call goes on
    if out.ok then (s.setStatus k.serverId .success).record (.succeeded k.serverId) else s
  | .fail _ => if out.ok then s.setStatus k.serverId .failed else s
  | .lock .. =>
    if out.ok ∧ s.repointLock = false then ({ s with repointLock := true }).record (.locked i)
    else s
  | .repoint _ oldSshKeyId newSshKeyId =>
    if out.ok then (s.repoint orgId oldSshKeyId newSshKeyId).record .repointed else s
  | .setPending => s.setStatus k.serverId .pending
  | .readRow | .readServer _ | .loadMeta _ | .findKeys .. | .readRows .. | .readRetry => s

def next (s : Store) (out : Outside) (k : Call) : Option Point :=
  match k.point with
  | .readRow =>
    (s.deployments.find k.serverId).bind fun row ↦
      if row.status = .success then none else some (.markRunning row)
  | .markRunning row => some (.readServer row)
  | .readServer row =>
    match s.servers.find row.serverId with
    | none => some (.fail row)
    | some server => some (if server.orgId = row.orgId then .loadMeta row else .fail row)
  | .loadMeta row =>
    let batchMeta := s.loadMeta.getD { action := row.action }
    some (if row.action = .rotate then .findKeys row batchMeta else .single row batchMeta)
  | .findKeys row batchMeta =>
    match s.key row.orgId row.sshKeyId, batchMeta.rotate with
    | some newKey, some rotate =>
      match s.key row.orgId rotate.oldSshKeyId with
      | some oldKey => some (.deploy row batchMeta newKey oldKey)
      | none => some (.fail row)
    | some newKey, none =>
      -- without options the query has no id, and finds the first key there is
      match s.sshKeys.rows.find? fun k ↦ k.orgId = row.orgId with
      | some oldKey => some (.deploy row batchMeta newKey oldKey)
      | none => some (.fail row)
    | none, _ => some (.fail row)
  | .deploy row batchMeta newKey oldKey =>
    some (if out.ok then .verify row batchMeta newKey oldKey else .fail row)
  | .verify row batchMeta newKey oldKey =>
    some (if out.ok ∧ newKey.line ∈ s.authorizedKeys k.serverId then .remove row batchMeta oldKey
      else .fail row)
  | .remove row batchMeta _ => some (if out.ok then .succeed row batchMeta else .fail row)
  | .single row batchMeta =>
    some (if (s.key row.orgId row.sshKeyId).isSome ∧ out.ok then .succeed row batchMeta
      else .fail row)
  | .succeed row batchMeta =>
    if row.action = .rotate ∧ batchMeta.rotate.any RotateOpts.updateCredentials then
      some (.readRows row batchMeta)
    else none
  | .fail _ => none
  | .readRows row batchMeta =>
    if out.ok = false then some (.fail row)
    else if s.deployments.rows.all fun row ↦ row.status = .success then
      match batchMeta.rotate, s.deployments.rows with
      | some rotate, first :: _ => some (.lock row rotate.oldSshKeyId first.sshKeyId)
      | _, _ => none
    else none
  | .lock row oldSshKeyId newSshKeyId =>
    if out.ok = false then some (.fail row)
    else if s.repointLock then none
    else some (.repoint row oldSshKeyId newSshKeyId)
  | .repoint row _ _ => if out.ok then none else some (.fail row)
  | .readRetry =>
    (s.deployments.find k.serverId).bind fun row ↦
      if row.status = .running then none else some .setPending
  | .setPending => none

def change (s : Store) : Change → Option Store
  | .reap serverIds => some { s with
      deployments := s.deployments.update
        (fun row ↦ if row.serverId ∈ serverIds ∧ row.status = .running then
          { row with status := .failed } else row) (by
          intro row
          split <;> rfl) }
  | .expireMeta => some { s with batchKept := false }
  | .expireLock => some { s with repointLock := false }

def start : Operation → Point
  | .processDeployment => .readRow
  | .retryDeployment => .readRetry

def program : Program Store (Id × Operation) Call Outside Change where
  start a := ⟨a.1, start a.2⟩
  act i s k out := some (effect orgId s i out k, (next s out k).map fun point ↦ ⟨k.serverId, point⟩)
  env := change

end

end Shellius.Rotation
