import Shellius.Sso.Reconcile

/-!
# The providers of an organization

`ssoConfigService`: creating, changing and deleting a provider, and the legacy endpoint that
writes the first provider of an organization.  With them stands `ssoService.linkIdentityToUser`,
which links an identity once the person has confirmed it or is signed in already.

What the address guard and the certificate parser answer, and what is encrypted to what, comes
from the surroundings, as do the URLs that are built from the id of a row.
-/

namespace Shellius.Sso

open Lib

/-! ## Rows -/

/-- The columns of `SsoConfig` that only SAML uses. -/
structure SamlColumns where
  samlIdpEntryPoint : Option String := none
  samlIdpEntityId : Option String := none
  samlIdpCertEncrypted : Option String := none
  samlSpEntityId : Option String := none
  samlSpPrivateKeyEncrypted : Option String := none
  samlSpCertificate : Option String := none
  samlSignatureAlgorithm : Option String := none
  samlWantAuthnResponseSigned : Bool := false
  samlAllowIdpInitiated : Bool := false
  samlClockSkewSec : Nat := 60
  samlIdentifierFormat : Option String := none
  samlForceAuthn : Bool := false
  samlSignRequests : Bool := true
  samlAttributeMapping : Option (List (String × String)) := none

/-- `SsoConfig`, with all its columns. -/
structure Provider extends SsoConfig, SamlColumns where
  displayOrder : Int := 0
  clientId : Option String := none
  clientSecretEncrypted : Option String := none
  issuerUrl : String
  redirectUri : String := "pending"
  scopes : String := "openid profile email"
  allowedOrgs : List String := []

/-- Who vouches for the subjects of a provider: SAML has an entity id instead of a URL. -/
def Provider.issuer (p : Provider) : Option String :=
  if p.provider = "saml" then p.samlIdpEntityId else some p.issuerUrl

/-! ## Requests -/

/-- The body of a request for a provider; `none` is `undefined`. -/
structure ProviderData where
  name : Option String := none
  presetId : Option String := none
  clientId : Option String := none
  clientSecret : Option String := none
  issuerUrl : Option String := none
  scopes : Option String := none
  defaultRole : Option String := none
  defaultGroupId : Option (Option String) := none
  autoProvision : Option Bool := none
  allowedDomains : Option (List String) := none
  allowedOrgs : Option (List String) := none
  requireVerifiedEmail : Option Bool := none
  isActive : Option Bool := none
  samlIdpEntryPoint : Option String := none
  samlIdpEntityId : Option String := none
  samlIdpCertificate : Option String := none
  samlSpEntityId : Option String := none
  samlSignatureAlgorithm : Option String := none
  samlWantAuthnResponseSigned : Option Bool := none
  samlAllowIdpInitiated : Option Bool := none
  samlClockSkewSec : Option Nat := none
  samlIdentifierFormat : Option String := none
  samlForceAuthn : Option Bool := none
  samlSignRequests : Option Bool := none
  samlAttributeMapping : Option (Option (List (String × String))) := none

/-- The body of a request to the legacy endpoint. -/
structure LegacyData where
  provider : String
  clientId : String
  issuerUrl : String
  presetId : Option String := none
  clientSecret : Option String := none
  redirectUri : Option String := none
  scopes : Option String := none
  isActive : Option Bool := none
  defaultRole : Option String := none
  defaultGroupId : Option (Option String) := none
  autoProvision : Option Bool := none
  allowedDomains : Option (List String) := none
  requireVerifiedEmail : Option Bool := none

structure Surroundings where
  rules : TextRules
  toLowerCase : String → String
  /-- `utils/ssrf.guardSsrf` -/
  guardSsrf : String → Except ApiError Unit
  /-- `utils/crypto.encrypt` -/
  encrypt : String → String
  /-- `samlService.encryptIdpCerts` -/
  encryptIdpCerts : String → Except ApiError String
  /-- Whether `ENV_DEFAULTS` has a secret for a preset. -/
  envSecret : String → Bool
  /-- The Google preset of the environment: its client id and its secret. -/
  envGoogle : Option (String × String) := none
  envDefaultRole : Option String := none
  envAutoProvision : Bool := true
  envAllowedDomains : List String := []
  callbackUrlFor : Id → String
  acsUrlFor : Id → String

/-- What a call draws: the id of a new row, and the key pair of a service provider. -/
structure Drawn where
  id : Id
  privateKeyPem : String := ""
  certificatePem : String := ""

/-! ## Helpers -/

/-- `SAML_PRESET_IDS` -/
def samlPresetIds : List String := ["saml", "saml-entra", "saml-okta", "saml-adfs"]

def isSamlPreset (presetId : Option String) : Bool := presetId.any (· ∈ samlPresetIds)

def protocolOf (presetId : Option String) : String :=
  if presetId = some "github" then "github" else "oidc"

def safeDefaultRole (role : Option String) : String :=
  match truthy role with
  | none => "member"
  | some r => if r = "super_admin" then "member" else r

def normalizeOrgs (allowedOrgs : List String) : List String :=
  (allowedOrgs.map trim).filter (· ≠ "")

def defaultScopesFor (provider : String) (allowedOrgs : List String) : String :=
  if provider = "github" then
    if allowedOrgs ≠ [] then "read:user user:email read:org" else "read:user user:email"
  else "openid profile email"

section

variable (env : Surroundings)

def normalizeDomains (allowedDomains : List String) : List String :=
  (allowedDomains.map fun d ↦ env.toLowerCase (trim d)).filter (· ≠ "")

/-- A URL that is given must not lead to a private address. -/
def guardUrl (issuerUrl : Option String) : Except ApiError Unit :=
  match truthy issuerUrl with
  | some url => env.guardSsrf url
  | none => .ok ()

/-- The certificate after a write: a blank one keeps the stored one. -/
def samlWriteCert (data : ProviderData) (existing : SamlColumns) :
    Except ApiError (Option String) :=
  match truthy data.samlIdpCertificate with
  | some pem => (env.encryptIdpCerts pem).map some
  | none =>
    if data.samlIdpCertificate = none ∨ (truthy existing.samlIdpCertEncrypted).isSome then
      .ok existing.samlIdpCertEncrypted
    else .error ⟨400, "An IdP signing certificate is required for a SAML provider", none⟩

/-- `samlWriteFields`: the columns after a write. -/
def samlWriteFields (data : ProviderData) (existing : SamlColumns) :
    Except ApiError SamlColumns := do
  let cert ← samlWriteCert env data existing
  pure { existing with
    samlIdpEntryPoint := data.samlIdpEntryPoint.or existing.samlIdpEntryPoint
    samlIdpEntityId := data.samlIdpEntityId.or existing.samlIdpEntityId
    samlIdpCertEncrypted := cert
    samlSpEntityId :=
      match data.samlSpEntityId with
      | some s => truthy (some s)
      | none => existing.samlSpEntityId
    samlSignatureAlgorithm := data.samlSignatureAlgorithm.or existing.samlSignatureAlgorithm
    samlWantAuthnResponseSigned :=
      data.samlWantAuthnResponseSigned.getD existing.samlWantAuthnResponseSigned
    samlAllowIdpInitiated := data.samlAllowIdpInitiated.getD existing.samlAllowIdpInitiated
    samlClockSkewSec := data.samlClockSkewSec.getD existing.samlClockSkewSec
    samlIdentifierFormat :=
      match data.samlIdentifierFormat with
      | some s => truthy (some s)
      | none => existing.samlIdentifierFormat
    samlForceAuthn := data.samlForceAuthn.getD existing.samlForceAuthn
    samlSignRequests := data.samlSignRequests.getD existing.samlSignRequests
    samlAttributeMapping := data.samlAttributeMapping.getD existing.samlAttributeMapping }

/-! ## Tables -/

/-- Where an identity comes from: who vouched for the subject, and for whom, when it was
linked. -/
structure Origin where
  provider : String
  issuer : Option String
  userId : Id
deriving DecidableEq

/-- The accounts and the providers.  `origins` is no part of the code: it keeps, for a subject of
a provider, what was so when its identity was created. -/
structure State where
  directory : Directory
  providers : Keyed (fun p : Provider ↦ p.id) := .empty
  origins : Id × String → Origin := fun _ ↦ ⟨"", none, ""⟩

namespace State

variable (s : State) (orgId : Id)

def rowsOf : List Provider := s.providers.rows.filter (·.orgId = orgId)

def provider (id : Id) : Option Provider := (s.providers.find id).filter (·.orgId = orgId)

def getProviderRow (id : Id) : Except ApiError Provider :=
  demand (s.provider orgId id) ⟨404, "SSO provider not found", none⟩

def first : Option Provider := least (·.displayOrder) (s.rowsOf orgId)

/-- The place after the last one. -/
def nextOrder : Int :=
  match greatest (·.displayOrder) (s.rowsOf orgId) with
  | some p => p.displayOrder + 1
  | none => 0

def create (p : Provider) : Except ApiError State :=
  (demand (s.providers.insert? p) duplicateRow).map fun providers ↦ { s with providers }

def replace (p : Provider) : State :=
  { s with
    providers := s.providers.update (fun r ↦ if r.id = p.id then p else r) fun r ↦ by
      split
      · rename_i h
        exact h.symm
      · rfl }

def remove (id : Id) : State :=
  { s with
    providers := s.providers.filter (·.id ≠ id)
    directory := { s.directory with
      identities := s.directory.identities.filter (·.ssoConfigId ≠ id) } }

end State

/-! ## The service -/

def createSamlProvider (s : State) (orgId : Id) (data : ProviderData) (d : Drawn) :
    Except ApiError State := do
  require (truthy data.samlIdpEntryPoint).isSome
    ⟨400, "samlIdpEntryPoint is required for a SAML provider", none⟩
  require (truthy data.samlIdpEntityId).isSome
    ⟨400, "samlIdpEntityId is required for a SAML provider", none⟩
  require (truthy data.samlIdpCertificate).isSome
    ⟨400, "An IdP signing certificate is required for a SAML provider", none⟩
  let columns ← samlWriteFields env data {
    samlSpPrivateKeyEncrypted := some (env.encrypt d.privateKeyPem)
    samlSpCertificate := some d.certificatePem
    samlSignatureAlgorithm := some ((truthy data.samlSignatureAlgorithm).getD "sha256")
    samlClockSkewSec := data.samlClockSkewSec.getD 60 }
  s.create {
    toSamlColumns := columns
    id := d.id
    orgId
    provider := "saml"
    presetId := (truthy data.presetId).or (some "saml")
    name := (truthy data.name).getD "SAML 2.0"
    displayOrder := s.nextOrder orgId
    issuerUrl := ""
    redirectUri := env.acsUrlFor d.id
    scopes := ""
    defaultRole := safeDefaultRole data.defaultRole
    defaultGroupId := data.defaultGroupId.bind truthy
    autoProvision := data.autoProvision.getD true
    allowedDomains := normalizeDomains env (data.allowedDomains.getD [])
    requireVerifiedEmail := data.requireVerifiedEmail.getD true
    isActive := data.isActive.getD true }

def createProvider (s : State) (orgId : Id) (data : ProviderData) (d : Drawn) :
    Except ApiError State :=
  if isSamlPreset data.presetId then createSamlProvider env s orgId data d
  else do
    let provider := protocolOf data.presetId
    require (provider = "oidc" → (truthy data.issuerUrl).isSome)
      ⟨400, "issuerUrl is required for OIDC providers", none⟩
    guardUrl env data.issuerUrl
    require ((truthy data.clientSecret).isSome ∨ (truthy data.presetId).any env.envSecret)
      ⟨400, "clientSecret is required", none⟩
    let allowedOrgs :=
      if provider = "github" then normalizeOrgs (data.allowedOrgs.getD []) else []
    s.create {
      id := d.id
      orgId
      provider
      presetId := truthy data.presetId
      name := (truthy data.name).getD (if provider = "github" then "GitHub" else "Single Sign-On")
      displayOrder := s.nextOrder orgId
      clientId := data.clientId
      clientSecretEncrypted := (truthy data.clientSecret).map env.encrypt
      issuerUrl := (truthy data.issuerUrl).getD
        (if provider = "github" then "https://github.com" else "")
      redirectUri := env.callbackUrlFor d.id
      scopes := (truthy data.scopes).getD (defaultScopesFor provider allowedOrgs)
      defaultRole := safeDefaultRole data.defaultRole
      defaultGroupId := data.defaultGroupId.bind truthy
      autoProvision := data.autoProvision.getD true
      allowedDomains := normalizeDomains env (data.allowedDomains.getD [])
      requireVerifiedEmail := data.requireVerifiedEmail.getD true
      allowedOrgs
      isActive := data.isActive.getD true }

/-- The columns that every protocol has, after an update. -/
def commonFields (data : ProviderData) (c : SsoConfig) : SsoConfig :=
  { c with
    name := data.name.getD c.name
    defaultRole :=
      match data.defaultRole with
      | some r => safeDefaultRole (some r)
      | none => c.defaultRole
    defaultGroupId :=
      match data.defaultGroupId with
      | some g => truthy g
      | none => c.defaultGroupId
    autoProvision := data.autoProvision.getD c.autoProvision
    allowedDomains :=
      match data.allowedDomains with
      | some ds => normalizeDomains env ds
      | none => c.allowedDomains
    requireVerifiedEmail := data.requireVerifiedEmail.getD c.requireVerifiedEmail
    isActive := data.isActive.getD c.isActive }

/-- What `updateProvider` makes of a row of SAML. -/
def updateSaml (existing : Provider) (data : ProviderData) : Except ApiError Provider := do
  require (data.presetId = none ∨ isSamlPreset data.presetId = true) ⟨400, "A SAML provider " ++
    "cannot be changed to another protocol — create a new provider instead", none⟩
  let columns ← samlWriteFields env data existing.toSamlColumns
  pure { existing with
    toSsoConfig := { commonFields env data existing.toSsoConfig with
      presetId := data.presetId.or existing.presetId }
    toSamlColumns := columns }

/-- What `updateProvider` makes of a row of OIDC or GitHub. -/
def updateOAuth (existing : Provider) (data : ProviderData) : Except ApiError Provider := do
  require (isSamlPreset data.presetId = false)
    ⟨400, "An OIDC provider cannot be changed to SAML — create a new provider instead", none⟩
  let provider := if data.presetId.isSome then protocolOf data.presetId else existing.provider
  guardUrl env data.issuerUrl
  require (provider = "oidc" → data.issuerUrl.getD existing.issuerUrl ≠ "")
    ⟨400, "issuerUrl is required for OIDC providers", none⟩
  pure { existing with
    toSsoConfig := { commonFields env data existing.toSsoConfig with
      presetId := if data.presetId.isSome then truthy data.presetId else existing.presetId
      provider := provider }
    clientId := data.clientId.or existing.clientId
    clientSecretEncrypted :=
      ((truthy data.clientSecret).map env.encrypt).or existing.clientSecretEncrypted
    issuerUrl := data.issuerUrl.getD existing.issuerUrl
    scopes := data.scopes.getD existing.scopes
    allowedOrgs :=
      match data.allowedOrgs with
      | some orgs => normalizeOrgs orgs
      | none => existing.allowedOrgs }

/-- What `updateProvider` makes of a row. -/
def updateRow (existing : Provider) (data : ProviderData) : Except ApiError Provider :=
  -- A provider of SAML stays one.
  if existing.provider = "saml" then updateSaml env existing data
  else updateOAuth env existing data

def updateProvider (s : State) (orgId id : Id) (data : ProviderData) : Except ApiError State := do
  let existing ← s.getProviderRow orgId id
  let row ← updateRow env existing data
  pure (s.replace row)

def legacyRow (row : Provider) (data : LegacyData) : Provider :=
  { row with
    provider := data.provider
    clientId := some data.clientId
    issuerUrl := data.issuerUrl
    presetId := data.presetId.or row.presetId
    scopes := data.scopes.getD row.scopes
    isActive := data.isActive.getD row.isActive
    defaultRole :=
      match data.defaultRole with
      | some r => safeDefaultRole (some r)
      | none => row.defaultRole
    defaultGroupId :=
      match data.defaultGroupId with
      | some g => truthy g
      | none => row.defaultGroupId
    autoProvision := data.autoProvision.getD row.autoProvision
    allowedDomains :=
      match data.allowedDomains with
      | some ds => normalizeDomains env ds
      | none => row.allowedDomains
    requireVerifiedEmail := data.requireVerifiedEmail.getD row.requireVerifiedEmail
    clientSecretEncrypted :=
      ((truthy data.clientSecret).map env.encrypt).or row.clientSecretEncrypted }

/-- `upsert`: the first provider is written, or one is created. -/
def upsert (s : State) (orgId : Id) (data : LegacyData) (d : Drawn) : Except ApiError State :=
  match s.first orgId with
  | some existing =>
    pure (s.replace { legacyRow env existing data with
      redirectUri := (truthy data.redirectUri).getD existing.redirectUri })
  | none => do
      require ((truthy data.clientSecret).isSome ∨ (truthy data.presetId).any env.envSecret)
        ⟨400, "clientSecret is required when creating a new SSO configuration", none⟩
      s.create { legacyRow env { id := d.id, orgId, issuerUrl := data.issuerUrl } data with
        redirectUri := (truthy data.redirectUri).getD (env.callbackUrlFor d.id) }

/-- `deleteProvider`: the identities go with it, unless somebody would have no way to sign in. -/
def deleteProvider (s : State) (orgId id : Id) (force : Bool) : Except ApiError State := do
  let existing ← s.getProviderRow orgId id
  require (force = true ∨ ∀ i ∈ s.directory.identities.rows, i.ssoConfigId = id →
      ∀ u ∈ s.directory.users.find i.userId, (truthy u.passwordHash).isSome ∨
        ∃ j ∈ s.directory.identities.rows, j.userId = i.userId ∧ j.ssoConfigId ≠ id)
    ⟨409, "Deleting this provider would leave at least one user with no way to sign in",
      some "LAST_SIGN_IN_METHOD"⟩
  pure (s.remove existing.id)

def materializeEnvGoogle (s : State) (orgId : Id) (d : Drawn) : Except ApiError State :=
  match (s.rowsOf orgId).find? (·.presetId = some "google") with
  | some _ => pure s
  | none =>
    match env.envGoogle with
    | none => pure s
    | some (clientId, clientSecret) =>
      s.create {
        id := d.id
        orgId
        provider := "oidc"
        presetId := some "google"
        name := "Google"
        displayOrder := -1
        clientId := some clientId
        clientSecretEncrypted := some (env.encrypt clientSecret)
        issuerUrl := "https://accounts.google.com"
        redirectUri := env.callbackUrlFor d.id
        defaultRole := safeDefaultRole env.envDefaultRole
        autoProvision := env.envAutoProvision
        allowedDomains := env.envAllowedDomains }

end

/-! ## Signing in -/

/-- An identity to be linked: the `cfg` and the profile of `linkIdentityToUser`. -/
structure Linking where
  orgId : Id
  ssoConfigId : Id
  provider : String
  label : String
  userId : Id
  subject : String
  externalId : Option String := none
  email : Option String := none
  name : Option String := none
  picture : Option String := none
  activate : Bool := false

namespace Linking

variable (l : Linking)

def key : Id × String := (l.ssoConfigId, l.subject)

def identity (now : Millis) (id : Id) : UserIdentity where
  id
  orgId := l.orgId
  userId := l.userId
  ssoConfigId := l.ssoConfigId
  provider := l.provider
  subject := l.subject
  externalId := truthy l.externalId
  email := truthy l.email
  lastLoginAt := if l.activate then some now else none

def row (u : Account) : Account :=
  { u with
    name := if u.name = "" then (truthy l.name).getD u.name else u.name
    avatarUrl := (truthy u.avatarUrl).or (truthy l.picture)
    ssoProvider := (truthy u.ssoProvider).or (some l.provider)
    ssoSub := (truthy u.ssoSub).or (some l.subject)
    status :=
      if l.activate = true ∧ u.status ∈ [.invited, .pendingVerification] then .active
      else u.status }

/-- The subject is linked to no account. -/
def checkUnlinked (d : Directory) : Except ApiError Unit :=
  match d.identities.find l.key with
  | none => .ok ()
  | some existing =>
    if existing.userId ≠ l.userId then
      .error (ssoError "identity_in_use"
        ("This " ++ l.label ++ " account is already linked to another Shellius user") 409)
    else
      .error (ssoError "already_connected"
        ("This " ++ l.label ++ " account is already connected") 409)

end Linking

def linkIdentityToUser (d : Directory) (l : Linking) (now : Millis) (identityId : Id) :
    Except ApiError Directory := do
  l.checkUnlinked d
  require (∀ i ∈ d.identities.rows, ¬ (i.userId = l.userId ∧ i.ssoConfigId = l.ssoConfigId))
    (ssoError "already_connected" ("You already have a " ++ l.label ++ " account connected") 409)
  let user ← demand ((d.users.find l.userId).filter fun u ↦ u.orgId = l.orgId)
    (ssoError "account_disabled" "Account is not active")
  require (user.status ∉ disabledStatuses) (ssoError "account_disabled" "Account is not active")
  let identities ← demand (d.identities.insert? (l.identity now identityId))
    (ssoError "identity_in_use"
      ("This " ++ l.label ++ " account is already linked to another Shellius user") 409)
  pure ({ d with identities }.updateUser user.id l.row (fun _ ↦ rfl) fun _ ↦ ⟨rfl, rfl⟩)

/-- `decryptProvider`, without the secret. -/
def decryptProvider (row : Provider) : SsoConfig :=
  { row.toSsoConfig with defaultRole := safeDefaultRole (some row.defaultRole) }

namespace State

variable (env : Surroundings) (s : State)

/-- A sign-in at a provider, up to `reconcileSsoUser`. -/
def request (row : Provider) (profile : Profile) (now : Millis) (userId identityId : Id) :
    Request where
  rules := env.rules
  toLowerCase := env.toLowerCase
  orgId := row.orgId
  cfg := decryptProvider row
  profile := profile
  now := now
  userId := userId
  identityId := identityId

/-- The origin of an identity that is created now. -/
def withOrigin (row : Provider) (subject : String) (userId : Id) : State :=
  { s with
    origins := Function.update s.origins (row.id, subject) ⟨row.provider, row.issuer, userId⟩ }

def signIn (orgId providerId : Id) (profile : Profile) (now : Millis) (userId identityId : Id) :
    Except ApiError (State × SignIn) := do
  let row ← demand (s.provider orgId providerId)
    (ssoError "sso_not_configured" "SSO is not configured")
  let q := request env row profile now userId identityId
  let (directory, answer) ← q.reconcile s.directory
  pure (match answer, q.linkedIdentity s.directory with
    | .user account _, none =>
      ({ s with directory }.withOrigin row profile.subject account.id, answer)
    | _, _ => ({ s with directory }, answer))

/-- `finalizePendingLink`, for a token that has been consumed. -/
def finalizePendingLink (pending : PendingLink) (now : Millis) (identityId : Id) :
    Except ApiError State := do
  let row ← demand ((s.provider pending.orgId pending.ssoConfigId).filter (·.isActive))
    ⟨409, "This sign-in provider is no longer available", some "PROVIDER_UNAVAILABLE"⟩
  let directory ← linkIdentityToUser s.directory
    { orgId := pending.orgId
      ssoConfigId := pending.ssoConfigId
      provider := pending.provider
      label := if pending.providerName = "" then pending.provider else pending.providerName
      userId := pending.userId
      subject := pending.subject
      externalId := pending.externalId
      email := some pending.email
      name := pending.name
      picture := pending.picture
      activate := true } now identityId
  pure ({ s with directory }.withOrigin row pending.subject pending.userId)

/-- `completeConnect`, for a callback of a provider. -/
def completeConnect (orgId providerId userId : Id) (profile : Profile) (now : Millis)
    (identityId : Id) : Except ApiError State := do
  let row ← demand (s.provider orgId providerId)
    (ssoError "sso_not_configured" "SSO is not configured")
  require (profile.subject ≠ "")
    (ssoError "sso_failed" "Provider response is missing a subject")
  let domain := truthy ((((truthy profile.email).getD "").splitOn "@")[1]?.map env.toLowerCase)
  require (row.allowedDomains = [] ∨ ∃ x ∈ domain, x ∈ row.allowedDomains)
    (ssoError "domain_not_allowed" "This email domain is not permitted for this organization")
  let user ← demand ((s.directory.users.find userId).filter fun u ↦ u.orgId = orgId)
    (ssoError "account_disabled" "Account is not active")
  require (user.status = .active) (ssoError "account_disabled" "Account is not active")
  let directory ← linkIdentityToUser s.directory
    { orgId
      ssoConfigId := row.id
      provider := row.provider
      label := providerName row.toSsoConfig
      userId
      subject := profile.subject
      externalId := profile.externalId
      email := (truthy profile.email).map env.toLowerCase
      name := profile.name
      picture := profile.picture } now identityId
  pure ({ s with directory }.withOrigin row profile.subject userId)

end State

end Shellius.Sso
