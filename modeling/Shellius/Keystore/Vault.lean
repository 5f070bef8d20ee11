import Shellius.Lib.Action
import Shellius.Lib.Dict
import Shellius.Policy.Manage

/-!
# Keys and identities

`keystoreService` creates, changes, deletes and moves the SSH keys and the identities of an
organization, and `importService.materializeIdentity` makes an identity of the secrets that came
with an imported server.

A key or an identity without an owner is in the Keystore of its organization; with one it is in
the personal vault of that user.  Every function gets the owner whose rows it may touch.

Several functions write more than once: a new key is stored before the identity that uses it, and
stays when the identity is refused.
-/

namespace Shellius.Keystore

open Lib Action

/-! ## Rows -/

structure SshKey where
  id : Id
  orgId : Id
  name : String
  description : Option String := none
  keyType : String
  bits : Option Nat := none
  publicKey : String
  privateKeyEncrypted : String
  passphraseEncrypted : Option String := none
  fingerprint : String
  comment : Option String := none
  source : String := "generated"
  originalFormat : Option String := none
  certificate : Option String := none
  createdById : Option Id := none
  ownerId : Option Id := none

structure Credential where
  id : Id
  orgId : Id
  name : String
  description : Option String := none
  username : String
  authType : String
  passwordEncrypted : Option String := none
  sshKeyId : Option Id := none
  tags : List String := []
  createdById : Option Id := none
  ownerId : Option Id := none

/-- `Server`, as far as identities go. -/
structure Server where
  id : Id
  orgId : Id
  authMode : ServerAuthMode := .certificate
  credentialId : Option Id := none

/-- `OnboardingCredential`: the secrets that came with a row of an import. -/
structure Staged where
  jobId : Id
  serverRef : String
  sshUser : String := ""
  authMethod : String
  storeAsIdentity : Bool := false
  identityName : Option String := none
  secretEncrypted : Option String := none
  passwordEncrypted : Option String := none
  passphraseEncrypted : Option String := none

/-- A commit of an import job: the job, and the identities it has made so far. -/
structure Commit where
  orgId : Id
  jobId : Id
  actorId : Option Id := none
  identities : Dict String Id := []

/-- The tables, the commits that are going on, and the ids that `cuid()` has given out. -/
structure Store where
  sshKeys : Keyed (fun k : SshKey ↦ k.id) := .empty
  credentials : Keyed (fun c : Credential ↦ c.id) := .empty
  servers : Keyed (fun s : Server ↦ s.id) := .empty
  staged : List Staged := []
  commits : Nat → Commit
  issued : List Id := []

/-! ## Surroundings -/

/-- What `utils/sshKeys` says of a private key. -/
structure ParsedKey where
  keyType : String
  bits : Option Nat := none
  publicKey : String
  privateKey : String
  fingerprint : String
  comment : Option String := none
  format : Option String := none

structure Surroundings where
  toLowerCase : String → String
  encrypt : String → String
  decrypt : String → Except ApiError String
  normalizePrivateKey : String → Option String → Except ApiError ParsedKey
  publicKeyMatches : ParsedKey → String → Bool
  /-- `parseCertificate`: the fingerprint of the key that a certificate is for. -/
  parseCertificate : String → Except ApiError String

structure NewKey where
  generate : Bool := false
  keyType : Option String := none
  bits : Option Nat := none
  passphrase : Option String := none
  privateKey : Option String := none

/-- What a call draws: the ids of new rows, what the key generator answers, and the random parts
of names. -/
structure Drawn where
  keyId : Id
  credentialId : Id
  generated : Except ApiError ParsedKey
  suffix : Nat → String

/-! ## Names -/

/-- `assertNameFree` for one of the two tables. -/
def assertNameFree (what : String) (taken : Id → Option Id → String → Option Id → Bool) (orgId : Id)
    (ownerId : Option Id) (name : String) (excludeId : Option Id) : Except ApiError Unit :=
  if name = "" then .ok ()
  else if taken orgId (truthy ownerId) name excludeId then
    let place := if (truthy ownerId).isSome then " in your vault" else ""
    .error ⟨409, what ++ " named \"" ++ name ++ "\" already exists" ++ place, none⟩
  else .ok ()

def Store.keyNamed (s : Store) (orgId : Id) (ownerId : Option Id) (name : String)
    (excludeId : Option Id) : Bool :=
  s.sshKeys.rows.any fun k ↦
    k.orgId = orgId ∧ k.ownerId = ownerId ∧ k.name = name ∧ some k.id ≠ excludeId

/-- Whether another identity of the scope has a name. -/
def Store.credentialNamed (s : Store) (orgId : Id) (ownerId : Option Id) (name : String)
    (excludeId : Option Id) : Bool :=
  s.credentials.rows.any fun c ↦
    c.orgId = orgId ∧ c.ownerId = ownerId ∧ c.name = name ∧ some c.id ≠ excludeId

def Store.assertKeyNameFree (s : Store) (orgId : Id) (ownerId : Option Id) (name : String) :
    Except ApiError Unit :=
  assertNameFree "A key" s.keyNamed orgId ownerId name none

def Store.assertCredentialNameFree (s : Store) (orgId : Id) (ownerId : Option Id) (name : String)
    (excludeId : Option Id) : Except ApiError Unit :=
  assertNameFree "An identity" s.credentialNamed orgId ownerId name excludeId

/-! ## Writes -/

/-- `sshKey.create`; the database keeps the names of a user's keys apart (`P2002`), and lets the
names of an organization be, since their owner is null. -/
def Store.insertKey (s : Store) (row : SshKey) : Option Store :=
  if row.ownerId.isSome ∧ s.keyNamed row.orgId row.ownerId row.name none then none
  else (s.sshKeys.insert? row).map fun sshKeys ↦ { s with sshKeys }

/-- `credential.create` -/
def Store.insertCredential (s : Store) (row : Credential) : Option Store :=
  if row.ownerId.isSome ∧ s.credentialNamed row.orgId row.ownerId row.name none then none
  else (s.credentials.insert? row).map fun credentials ↦ { s with credentials }

/-- A row under its own id, changed. -/
def writeKey (id : Id) (f : SshKey → SshKey) (k : SshKey) : SshKey :=
  { if k.id = id then f k else k with id := k.id }

def writeCredential (id : Id) (f : Credential → Credential) (c : Credential) : Credential :=
  { if c.id = id then f c else c with id := c.id }

def writeServer (p : Server → Bool) (f : Server → Server) (server : Server) : Server :=
  { if p server then f server else server with id := server.id }

def Store.updateKey (s : Store) (id : Id) (f : SshKey → SshKey) : Store :=
  { s with sshKeys := s.sshKeys.update (writeKey id f) fun _ ↦ rfl }

def Store.updateCredential (s : Store) (id : Id) (f : Credential → Credential) : Store :=
  { s with credentials := s.credentials.update (writeCredential id f) fun _ ↦ rfl }

def Store.updateServers (s : Store) (p : Server → Bool) (f : Server → Server) : Store :=
  { s with servers := s.servers.update (writeServer p f) fun _ ↦ rfl }

def Store.findKey (s : Store) (orgId id : Id) (ownerId : Option Id) : Option SshKey :=
  (s.sshKeys.find id).filter fun k ↦ k.orgId = orgId ∧ k.ownerId = ownerId

def Store.findCredential (s : Store) (orgId id : Id) (ownerId : Option Id) : Option Credential :=
  (s.credentials.find id).filter fun c ↦ c.orgId = orgId ∧ c.ownerId = ownerId

/-- `_count.credentials` of a key. -/
def Store.credentialCount (s : Store) (keyId : Id) : Nat :=
  (s.credentials.rows.filter fun c ↦ c.sshKeyId = some keyId).length

/-- `_count.servers` of an identity. -/
def Store.serverCount (s : Store) (credentialId : Id) : Nat :=
  (s.servers.rows.filter fun server ↦ server.credentialId = some credentialId).length

/-! ## Keys -/

variable (env : Surroundings)

def createSshKeyRow (row : SshKey) : Action Store ApiError SshKey := do
  let s ← get
  let t ← orFail (s.insertKey row)
    ⟨409, "A key named \"" ++ row.name ++ "\" already exists", none⟩
  set t
  pure row

def generateKey (orgId : Id) (name : String) (description passphrase : Option String)
    (createdById ownerId : Option Id) (drawn : Drawn) : Action Store ApiError SshKey := do
  check (name ≠ "") ⟨400, "name is required", none⟩
  let s ← get
  lift (s.assertKeyNameFree orgId ownerId name)
  let generated ← lift drawn.generated
  createSshKeyRow {
    id := drawn.keyId, orgId, name, description := truthy description
    keyType := generated.keyType, bits := generated.bits, publicKey := generated.publicKey
    privateKeyEncrypted := env.encrypt generated.privateKey
    passphraseEncrypted := (truthy passphrase).map env.encrypt
    fingerprint := generated.fingerprint, comment := truthy generated.comment
    source := "generated", originalFormat := some "openssh"
    createdById := truthy createdById, ownerId }

/-- The body of `importKey`. -/
structure KeyData where
  name : String
  description : Option String := none
  privateKey : String
  passphrase : Option String := none
  publicKey : Option String := none
  certificate : Option String := none

def validateCertificateForKey (certificate : Option String) (parsed : ParsedKey) :
    Except ApiError (Option String) :=
  match truthy certificate with
  | none => .ok none
  | some text => do
      let fingerprint ← env.parseCertificate text
      require (fingerprint = parsed.fingerprint)
        ⟨400, "This certificate does not certify the supplied key", some "CERT_KEY_MISMATCH"⟩
      pure (some text)

def importKey (orgId : Id) (data : KeyData) (createdById ownerId : Option Id) (drawn : Drawn) :
    Action Store ApiError SshKey := do
  check (data.name ≠ "") ⟨400, "name is required", none⟩
  let s ← get
  lift (s.assertKeyNameFree orgId ownerId data.name)
  let parsed ← lift (env.normalizePrivateKey data.privateKey data.passphrase)
  check ((truthy data.publicKey).all (env.publicKeyMatches parsed))
    ⟨400, "The supplied public key does not match the private key", some "KEY_PUBLIC_MISMATCH"⟩
  let certificate ← lift (validateCertificateForKey env data.certificate parsed)
  createSshKeyRow {
    id := drawn.keyId, orgId, name := data.name, description := truthy data.description
    keyType := parsed.keyType, bits := parsed.bits, publicKey := parsed.publicKey
    privateKeyEncrypted := env.encrypt parsed.privateKey
    passphraseEncrypted := (truthy data.passphrase).map env.encrypt
    fingerprint := parsed.fingerprint, comment := truthy parsed.comment
    source := "imported", originalFormat := parsed.format, certificate
    createdById := truthy createdById, ownerId }

def deleteKey (orgId id : Id) (ownerId : Option Id) : Action Store ApiError Unit := do
  let s ← get
  let existing ← orFail (s.findKey orgId id ownerId) ⟨404, "Key not found", none⟩
  check (s.credentialCount existing.id = 0)
    ⟨409, "This key is referenced by one or more identities", some "KEY_IN_USE"⟩
  set { s with sshKeys := s.sshKeys.filter fun k ↦ k.id ≠ existing.id }

/-! ## Identities -/

/-- `AUTH_TYPES` -/
def authTypes : List String := ["password", "key", "key_password"]

def validateAuthMaterial (authType : String) (hasPassword hasKey : Bool) : Except ApiError Unit := do
  require (authType ∈ authTypes)
    ⟨400, "authType must be one of: password, key, key_password", none⟩
  require (authType = "password" → hasPassword)
    ⟨400, "password is required for authType \"password\"", none⟩
  require (authType = "key" → hasKey)
    ⟨400, "sshKeyId or newKey is required for authType \"key\"", none⟩
  require (authType = "key_password" → hasKey ∧ hasPassword)
    ⟨400, "authType \"key_password\" requires both a key (sshKeyId/newKey) and a password", none⟩

def parseNewKey (newKey : NewKey) (drawn : Drawn) : Except ApiError ParsedKey :=
  if newKey.generate then drawn.generated.map fun k ↦ { k with format := some "openssh" }
  else
    match truthy newKey.privateKey with
    | some privateKey => env.normalizePrivateKey privateKey newKey.passphrase
    | none =>
      .error ⟨400,
        "newKey must be either \x7b generate: true, ... \x7d or " ++
          "\x7b privateKey, passphrase? \x7d", none⟩

/-- The first of some rows that the database takes. -/
def createFirst : List SshKey → Action Store ApiError SshKey
  | [] => throw duplicateRow
  | row :: rows => do
      let s ← get
      match s.insertKey row with
      | none => createFirst rows
      | some t => do
          set t
          pure row

def newKeyRow (orgId : Id) (newKey : NewKey) (parsed : ParsedKey) (createdById ownerId : Option Id)
    (id : Id) (name : String) : SshKey where
  id := id
  orgId := orgId
  name := name
  keyType := parsed.keyType
  bits := parsed.bits
  publicKey := parsed.publicKey
  privateKeyEncrypted := env.encrypt parsed.privateKey
  passphraseEncrypted := (truthy newKey.passphrase).map env.encrypt
  fingerprint := parsed.fingerprint
  comment := truthy parsed.comment
  source := if newKey.generate then "generated" else "imported"
  originalFormat := parsed.format
  createdById := truthy createdById
  ownerId := ownerId

/-- A name with a random part. -/
def suffixed (name suffix : String) : String := name ++ " (" ++ suffix ++ ")"

def resolveNewKey (orgId : Id) (name : String) (newKey : NewKey) (createdById ownerId : Option Id)
    (drawn : Drawn) : Action Store ApiError SshKey := do
  let parsed ← lift (parseNewKey env newKey drawn)
  let s ← get
  let plain := name ++ " key"
  let keyName :=
    if s.keyNamed orgId ownerId plain none then suffixed plain (drawn.suffix 0) else plain
  createFirst ([keyName, suffixed keyName (drawn.suffix 1), suffixed keyName (drawn.suffix 2)].map
    (newKeyRow env orgId newKey parsed createdById ownerId drawn.keyId))

/-- The key that an identity is to use: a new one, or one of the same scope that is there. -/
def keyFor (orgId : Id) (name : String) (sshKeyId : Option Id) (newKey : Option NewKey)
    (createdById ownerId : Option Id) (drawn : Drawn) : Action Store ApiError (Option Id) :=
  match newKey with
  | some newKey => do
      let created ← resolveNewKey env orgId name newKey createdById ownerId drawn
      pure (some created.id)
  | none =>
    match truthy sshKeyId with
    | none => pure none
    | some id => do
        let s ← get
        let key ← orFail (s.findKey orgId id ownerId)
          ⟨400, if ownerId.isSome then "sshKeyId not found in your vault"
            else "sshKeyId not found in organization", none⟩
        pure (some key.id)

/-- The body of `createCredential`. -/
structure CredentialData where
  name : String
  description : Option String := none
  username : String
  authType : String
  password : Option String := none
  sshKeyId : Option Id := none
  newKey : Option NewKey := none
  tags : List String := []

def createCredentialRow (row : Credential) : Action Store ApiError Credential := do
  let s ← get
  let t ← orFail (s.insertCredential row)
    ⟨409, "An identity named \"" ++ row.name ++ "\" already exists", none⟩
  set t
  pure row

def createCredential (orgId : Id) (data : CredentialData) (createdById ownerId : Option Id)
    (drawn : Drawn) : Action Store ApiError Credential := do
  check (data.name ≠ "") ⟨400, "name is required", none⟩
  check (data.username ≠ "") ⟨400, "username is required", none⟩
  lift (validateAuthMaterial data.authType (truthy data.password).isSome
    ((truthy data.sshKeyId).isSome || data.newKey.isSome))
  let s ← get
  lift (s.assertCredentialNameFree orgId ownerId data.name none)
  let sshKeyId ← keyFor env orgId data.name data.sshKeyId data.newKey createdById ownerId drawn
  createCredentialRow {
    id := drawn.credentialId, orgId, name := data.name, description := truthy data.description
    username := data.username, authType := data.authType
    passwordEncrypted := (truthy data.password).map env.encrypt
    sshKeyId, tags := data.tags, createdById := truthy createdById, ownerId }

/-- The body of `updateCredential`; `none` is `undefined` and `some none` is `null`. -/
structure CredentialPatch where
  name : Option String := none
  description : Option (Option String) := none
  username : Option String := none
  authType : Option String := none
  password : Option String := none
  clearPassword : Bool := false
  sshKeyId : Option (Option Id) := none
  newKey : Option NewKey := none
  tags : Option (List String) := none

def CredentialPatch.newPassword (data : CredentialPatch) (existing : Option String) :
    Option String :=
  if data.clearPassword then none
  else
    match truthy data.password with
    | some password => some (env.encrypt password)
    | none => existing

def CredentialPatch.willHavePassword (data : CredentialPatch) (existing : Option String) : Bool :=
  !data.clearPassword && ((truthy data.password).isSome || (truthy existing).isSome)

def CredentialPatch.hasKey (data : CredentialPatch) (existing : Credential) : Bool :=
  data.newKey.isSome || (truthy (data.sshKeyId.getD existing.sshKeyId)).isSome

/-- The identity as it will be, with the key it will use. -/
def CredentialPatch.apply (data : CredentialPatch) (sshKeyId : Option Id) (row : Credential) :
    Credential :=
  { row with
    name := data.name.getD row.name
    description := data.description.getD row.description
    username := data.username.getD row.username
    authType := data.authType.getD row.authType
    tags := data.tags.getD row.tags
    passwordEncrypted := data.newPassword env row.passwordEncrypted
    sshKeyId := sshKeyId }

def keyAfter (orgId : Id) (existing : Credential) (data : CredentialPatch)
    (actorId ownerId : Option Id) (drawn : Drawn) : Action Store ApiError (Option Id) :=
  if data.newKey.isSome ∨ data.sshKeyId.isSome then
    keyFor env orgId ((truthy data.name).getD existing.name) data.sshKeyId.join data.newKey actorId
      ownerId drawn
  else pure existing.sshKeyId

def updateCredential (orgId id : Id) (data : CredentialPatch) (actorId ownerId : Option Id)
    (drawn : Drawn) : Action Store ApiError Unit := do
  let s ← get
  let existing ← orFail (s.findCredential orgId id ownerId) ⟨404, "Identity not found", none⟩
  lift (if data.name.any (· ≠ existing.name) then
      s.assertCredentialNameFree orgId ownerId (data.name.getD "") (some id)
    else .ok ())
  lift (validateAuthMaterial ((truthy data.authType).getD existing.authType)
    (data.willHavePassword existing.passwordEncrypted) (data.hasKey existing))
  let sshKeyId ← keyAfter env orgId existing data actorId ownerId drawn
  let t ← get
  check (¬ (ownerId.isSome ∧ t.credentialNamed orgId ownerId (data.name.getD existing.name) (some id)))
    ⟨409, "An identity named \"" ++ data.name.getD "undefined" ++ "\" already exists", none⟩
  set (t.updateCredential id (data.apply env sshKeyId))

/-- `deleteCredential`; the database detaches what is still bound to the identity. -/
def deleteCredential (orgId id : Id) (force : Bool) (ownerId : Option Id) :
    Action Store ApiError Unit := do
  let s ← get
  let _ ← orFail (s.findCredential orgId id ownerId) ⟨404, "Identity not found", none⟩
  check (0 < s.serverCount id → force)
    ⟨409, "This identity is assigned to one or more servers", some "CREDENTIAL_IN_USE"⟩
  let t := s.updateServers (fun server ↦ server.orgId = orgId ∧ server.credentialId = some id)
    fun server ↦ { server with credentialId := none, authMode := .certificate }
  let u := t.updateServers (fun server ↦ server.credentialId = some id)
    fun server ↦ { server with credentialId := none }
  set { u with credentials := u.credentials.filter fun c ↦ c.id ≠ id }

/-! ## From a vault to the organization -/

def moveKeyToOrg (orgId id ownerId : Id) : Action Store ApiError Unit := do
  let s ← get
  let key ← orFail (s.findKey orgId id (some ownerId)) ⟨404, "Key not found", none⟩
  check (s.credentialCount id = 0)
    ⟨409, "Personal identities use this key — move those identities instead (their key moves " ++
      "with them) or switch them to another key first", some "KEY_IN_USE"⟩
  lift (s.assertKeyNameFree orgId none key.name)
  set (s.updateKey id fun k ↦ { k with ownerId := none })

/-- The store with a key, if there is one, in the hands of the organization. -/
def Store.releaseKey (s : Store) (key : Option SshKey) : Store :=
  match key with
  | none => s
  | some key => s.updateKey key.id fun k ↦ { k with ownerId := none }

def moveCredentialToOrg (orgId id ownerId : Id) : Action Store ApiError Unit := do
  let s ← get
  let cred ← orFail (s.findCredential orgId id (some ownerId)) ⟨404, "Identity not found", none⟩
  let key := cred.sshKeyId.bind s.sshKeys.find
  check (key.all fun key ↦ s.credentialCount key.id ≤ 1)
    ⟨409, "Other identities in your vault also use the key \"" ++ (key.map (·.name)).getD "" ++
      "\" — give this identity its own key first", some "KEY_SHARED"⟩
  lift (s.assertCredentialNameFree orgId none cred.name none)
  lift (match key with
    | some key => s.assertKeyNameFree orgId none key.name
    | none => .ok ())
  set ((s.releaseKey key).updateCredential id fun c ↦ { c with ownerId := none })

/-! ## Imports -/

/-- `lower` of `importService`. -/
def lower (v : String) : String := env.toLowerCase (trim v)

/-- An error without a status. -/
def plainError (message : String) : ApiError := ⟨500, message, none⟩

/-- What the staged secrets of a row say. -/
structure Secrets where
  privateKey : Option String
  password : Option String
  passphrase : Option String

def decryptSecret (secret : Option String) : Except ApiError (Option String) :=
  match truthy secret with
  | none => .ok none
  | some text => (env.decrypt text).map some

def decryptStaged (staged : Staged) : Except ApiError Secrets := do
  let privateKey ←
    decryptSecret env (staged.secretEncrypted.filter fun _ ↦ staged.authMethod ≠ "password")
  let password ← decryptSecret env staged.passwordEncrypted
  let passphrase ← decryptSecret env staged.passphraseEncrypted
  pure ⟨truthy privateKey, truthy password, passphrase⟩

/-- The identity of the organization with a name, if it is for the same account. -/
def reusable (s : Store) (orgId : Id) (name username : String) : Except ApiError (Option Id) :=
  match s.credentials.rows.find? fun c ↦ c.orgId = orgId ∧ c.ownerId = none ∧ c.name = name with
  | none => .ok none
  | some existing =>
    if lower env existing.username = lower env username then .ok (some existing.id)
    else
      .error (plainError ("Identity \"" ++ name ++ "\" already exists for user \"" ++
        existing.username ++ "\", but this row is for \"" ++ username ++ "\". " ++
        "Use a different identityName, or remove the conflict in the Keystore."))

def importedKey (commit : Commit) (name : String) (secrets : Secrets) (drawn : Drawn) :
    Action Store ApiError (Option Id) :=
  match secrets.privateKey with
  | none => pure none
  | some privateKey => do
      let created ← importKey env commit.orgId
        { name, description := some ("Imported by bulk import job " ++ commit.jobId)
          privateKey, passphrase := secrets.passphrase } commit.actorId none drawn
      pure (some created.id)

/-- A new identity for some secrets. -/
def importedCredential (commit : Commit) (name username : String) (secrets : Secrets)
    (drawn : Drawn) : Action Store ApiError Id := do
  let sshKeyId ← importedKey env commit name secrets drawn
  let credential ← createCredential env commit.orgId
    { name, description := some ("Imported by bulk import job " ++ commit.jobId), username
      authType :=
        if secrets.privateKey.isSome then
          if secrets.password.isSome then "key_password" else "key"
        else "password"
      password := secrets.password, sshKeyId, tags := ["imported"] } commit.actorId none drawn
  pure credential.id

/-- The identity that a row is to be bound to: one of this commit, one that is there, or a new
one. -/
def identityFor (commit : Commit) (staged : Staged) (name username : String) (drawn : Drawn) :
    Action Store ApiError (Option Id) :=
  match truthy (commit.identities.get (lower env name)) with
  | some id => pure (some id)
  | none => do
      let s ← get
      let existing ← lift (reusable env s commit.orgId name username)
      match existing with
      | some id => pure (some id)
      | none => do
          let secrets ← lift (decryptStaged env staged)
          if secrets.privateKey.isNone ∧ secrets.password.isNone then pure none
          else some <$> importedCredential env commit name username secrets drawn

/-- The commit with an identity under a name. -/
def Store.remember (s : Store) (n : Nat) (key : String) (credentialId : Id) : Store :=
  { s with
    commits := fun m ↦
      if m = n then { s.commits n with identities := (s.commits n).identities.set key credentialId }
      else s.commits m }

/-- A server is bound to an identity; the database refuses what is not there. -/
def bindServer (serverId credentialId : Id) : Action Store ApiError Unit := do
  let s ← get
  check ((s.servers.find serverId).isSome ∧ (s.credentials.find credentialId).isSome)
    databaseRequestError
  set (s.updateServers (fun server ↦ server.id = serverId)
    fun server ↦ { server with credentialId := some credentialId })

/-- `materializeIdentity`, for a server that the commit has found or created. -/
def materializeIdentity (n : Nat) (hostname : String) (serverId : Id) (drawn : Drawn) :
    Action Store ApiError Unit := do
  let s ← get
  let commit := s.commits n
  match s.staged.find? fun staged ↦
      staged.jobId = commit.jobId ∧ staged.serverRef = hostname ∧ staged.storeAsIdentity with
  | none => pure ()
  | some staged => do
      let name := (truthy staged.identityName).getD ("Imported — " ++ hostname)
      let username := (truthy (some staged.sshUser)).getD "root"
      let id? ← identityFor env commit staged name username drawn
      match id? with
      | none => pure ()
      | some credentialId => do
          modify fun t ↦ t.remember n (lower env name) credentialId
          bindServer serverId credentialId

/-! ## Events -/

inductive Call
  | generateKey (orgId : Id) (name : String) (description passphrase : Option String)
      (createdById ownerId : Option Id) (drawn : Drawn)
  | importKey (orgId : Id) (data : KeyData) (createdById ownerId : Option Id) (drawn : Drawn)
  | deleteKey (orgId id : Id) (ownerId : Option Id)
  | createCredential (orgId : Id) (data : CredentialData) (createdById ownerId : Option Id)
      (drawn : Drawn)
  | updateCredential (orgId id : Id) (data : CredentialPatch) (actorId ownerId : Option Id)
      (drawn : Drawn)
  | deleteCredential (orgId id : Id) (force : Bool) (ownerId : Option Id)
  | moveKeyToOrg (orgId id ownerId : Id)
  | moveCredentialToOrg (orgId id ownerId : Id)
  | materializeIdentity (n : Nat) (hostname : String) (serverId : Id) (drawn : Drawn)

def Call.run : Call → Action Store ApiError Unit
  | .generateKey orgId name description passphrase createdById ownerId drawn =>
    (Keystore.generateKey env orgId name description passphrase createdById ownerId drawn).forget
  | .importKey orgId data createdById ownerId drawn =>
    (Keystore.importKey env orgId data createdById ownerId drawn).forget
  | .deleteKey orgId id ownerId => Keystore.deleteKey orgId id ownerId
  | .createCredential orgId data createdById ownerId drawn =>
    (Keystore.createCredential env orgId data createdById ownerId drawn).forget
  | .updateCredential orgId id data actorId ownerId drawn =>
    Keystore.updateCredential env orgId id data actorId ownerId drawn
  | .deleteCredential orgId id force ownerId => Keystore.deleteCredential orgId id force ownerId
  | .moveKeyToOrg orgId id ownerId => Keystore.moveKeyToOrg orgId id ownerId
  | .moveCredentialToOrg orgId id ownerId => Keystore.moveCredentialToOrg orgId id ownerId
  | .materializeIdentity n hostname serverId drawn =>
    Keystore.materializeIdentity env n hostname serverId drawn

/-- The ids that a call draws for new rows. -/
def Call.draws : Call → List Id
  | .generateKey _ _ _ _ _ _ drawn | .importKey _ _ _ _ drawn => [drawn.keyId]
  | .createCredential _ _ _ _ drawn | .updateCredential _ _ _ _ _ drawn
  | .materializeIdentity _ _ _ drawn => [drawn.keyId, drawn.credentialId]
  | _ => []

/-- Whether a call can be made: `cuid()` gives no id out twice, and a commit only deals with
servers of its organization. -/
def Call.possible (s : Store) (call : Call) : Bool :=
  call.draws.all (· ∉ s.issued) &&
    match call with
    | .materializeIdentity n _ serverId _ =>
      (s.servers.find serverId).any fun server ↦ server.orgId = (s.commits n).orgId
    | _ => true

/-- What a call leaves, whether it succeeds or fails. -/
def step (s : Store) (call : Call) : Option Store :=
  if call.possible s then some ((call.run env).after { s with issued := call.draws ++ s.issued })
  else none

end Shellius.Keystore
