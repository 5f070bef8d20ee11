import Shellius.Lib.Pool
import Shellius.Net
import Shellius.Policy.Manage

/-!
# How servers are reached

`serverService.createServer` and `updateServer` behind their routes.  A server is
reached with a certificate or with an identity of the organization's Keystore, at a
fixed address or at one that is looked up when somebody connects; a body names some of
these fields and leaves the others as they are.

`validateAuthMode` looks at the fields of the body only, and so does the check of the
address.  What must hold between the fields therefore holds after an update if it does
between those of the body, or if those the body leaves out happen to agree.
-/

namespace Shellius.Servers

open Lib

/-! ## Rows -/

/-- `Credential`, with the organization and the user it belongs to; without a user it is
in the Keystore of the organization. -/
structure KeystoreCredential extends Credential where
  orgId : Id
  ownerId : Option Id := none

/-- `Server`, with its address. -/
structure ServerRow extends Server where
  hostname : String
  ipAddress : String
  dynamicIp : Bool := false
  port : Nat := 22
  rdpPasswordEncrypted : Option String := none

structure Store where
  customers : List Customer := []
  credentials : List KeystoreCredential := []
  servers : Keyed (fun s : ServerRow ↦ s.id) := .empty

/-! ## Bodies -/

/-- The body of a write; `none` is `undefined` and `some none` is `null`. -/
structure ServerData where
  hostname : Option String := none
  dynamicIp : Option Bool := none
  ipAddress : Option (Option String) := none
  port : Option Nat := none
  protocol : Option ServerProtocol := none
  environment : Option Environment := none
  labels : Option (List String) := none
  sshUser : Option String := none
  rdpUsername : Option (Option String) := none
  rdpPassword : Option (Option String) := none
  authMode : Option ServerAuthMode := none
  credentialId : Option (Option Id) := none

/-- What both schemas ask of the fields that are there. -/
def ServerData.fieldsValid (data : ServerData) : Bool :=
  data.hostname.all (fun s ↦ 1 ≤ utf16Length s ∧ utf16Length s ≤ 255) ∧
    data.port.all (fun n ↦ 1 ≤ n ∧ n ≤ 65535) ∧
    data.labels.all (fun l ↦ "" ∉ l) ∧
    data.sshUser ≠ some "" ∧
    data.rdpUsername.join.all (fun s ↦ utf16Length s ≤ 255) ∧
    data.credentialId ≠ some (some "")

/-- `createSchema`, with its defaults. -/
def createSchema (data : ServerData) : Option ServerData :=
  if data.fieldsValid ∧ data.hostname.isSome ∧
      (data.dynamicIp.getD false = false → data.ipAddress.isSome) ∧
      (data.authMode.getD .certificate = .credential → data.credentialId.join.isSome) then
    some { data with
      dynamicIp := some (data.dynamicIp.getD false)
      port := some (data.port.getD (if data.protocol = some .rdp then 3389 else 22))
      protocol := some (data.protocol.getD .ssh)
      environment := some (data.environment.getD .dev)
      sshUser := some (data.sshUser.getD "root")
      authMode := some (data.authMode.getD .certificate) }
  else none

def updateSchema (data : ServerData) : Option ServerData :=
  if data.fieldsValid then some data else none

/-- `assertServerFieldPermissions` for a new server: the permissions it takes. -/
def createPermissions (data : ServerData) : List String :=
  if data.authMode = some .credential ∨ data.credentialId.isSome ∨
      (truthy data.rdpPassword.join).isSome then ["servers.manage_credentials"]
  else []

/-- `assertServerFieldPermissions` for a server that is there. -/
def updatePermissions (data : ServerData) (current : ServerRow) : List String :=
  (if data.environment.any (· ≠ current.environment) then ["servers.change_environment"] else []) ++
    if data.authMode.any (· ≠ current.authMode) ∨ data.credentialId.any (· ≠ current.credentialId) ∨
        (truthy data.rdpPassword.join).isSome ∨
        current.authMode = .credential ∧ (data.ipAddress.any (· ≠ some current.ipAddress) ∨
          data.hostname.any (· ≠ current.hostname) ∨ data.port.any (· ≠ current.port)) then
      ["servers.manage_credentials"]
    else []

def requirePermission (permissions : List String) (key : String) : Except ApiError Unit :=
  require (key ∈ permissions) ⟨403, "You don’t have permission to do this", some "PERMISSION_DENIED"⟩

/-- The caller has the permissions that the fields ask for. -/
def assertPermissions (permissions needed : List String) : Except ApiError Unit :=
  require (∀ p ∈ needed, p ∈ permissions)
    ⟨403, "You don’t have permission to change these server settings", some "PERMISSION_DENIED"⟩

/-! ## The service -/

def validateIp (ip : String) : Bool := ip ≠ "" ∧ isIP ip ≠ 0

/-- The address of a write is valid, or empty on a server whose address changes. -/
def checkAddress (dynamicIp : Bool) (ip : String) : Except ApiError Unit :=
  require (validateIp ip ∨ dynamicIp = true ∧ ip = "")
    ⟨400, "ipAddress must be a valid IPv4 or IPv6 address", none⟩

/-- The identity is one of the organization's own. -/
def findCredential (s : Store) (orgId credentialId : Id) : Except ApiError KeystoreCredential :=
  demand (s.credentials.find? fun c ↦ c.id = credentialId ∧ c.orgId = orgId ∧ c.ownerId = none)
    ⟨400, "credentialId not found in organization", none⟩

/-- What `validateAuthMode` merges into the write. -/
structure AuthPatch where
  authMode : Option ServerAuthMode := none
  credentialId : Option (Option Id) := none

def validateAuthMode (s : Store) (orgId : Id) (authMode : Option ServerAuthMode)
    (credentialId : Option (Option Id)) : Except ApiError AuthPatch :=
  match authMode with
  | some .credential => do
      let id ← demand (truthy credentialId.join)
        ⟨400, "credentialId is required when authMode is \"credential\"", none⟩
      let _ ← findCredential s orgId id
      pure { authMode := some .credential, credentialId := some (some id) }
  | some .certificate => pure { authMode := some .certificate, credentialId := some none }
  | none =>
    match truthy credentialId.join with
    | none => pure { credentialId }
    | some id => do
        let _ ← findCredential s orgId id
        pure { credentialId }

/-- The address as it is written. -/
def ServerData.ip (data : ServerData) : String := trim (data.ipAddress.join.getD "")

/-- The secret of a write, if it has one; what `encrypt` makes of it is its own affair. -/
def ServerData.secret (encrypt : String → String) (data : ServerData) : Option String :=
  (truthy data.rdpPassword.join).map encrypt

variable (encrypt : String → String)

/-- `createServer`; the key of the row is drawn by the database. -/
def createServer (s : Store) (orgId customerId : Id) (data : ServerData) (scope : Scope)
    (id : Id) : Except ApiError Store := do
  require (customerId ≠ "") ⟨400, "customerId is required", none⟩
  require (scope.admits customerId) ⟨404, "Customer not found", none⟩
  require (∃ c ∈ s.customers, c.id = customerId ∧ c.orgId = orgId)
    ⟨400, "Customer not found in organization", none⟩
  let hostname ← demand (truthy data.hostname) ⟨400, "hostname is required", none⟩
  checkAddress (data.dynamicIp = some true) data.ip
  let patch ← validateAuthMode s orgId data.authMode data.credentialId
  let servers ← demand (s.servers.insert? {
      id, orgId, customerId, hostname
      ipAddress := data.ip
      dynamicIp := data.dynamicIp.getD false
      port := data.port.getD 22
      protocol := data.protocol.getD .ssh
      environment := data.environment.getD .dev
      labels := some (data.labels.getD [])
      sshUser := data.sshUser.getD "root"
      rdpUsername := data.rdpUsername.join
      rdpPasswordEncrypted := data.secret encrypt
      authMode := (patch.authMode.or data.authMode).getD .certificate
      credentialId := (patch.credentialId.or data.credentialId).join })
    databaseRequestError
  pure { s with servers }

def applyUpdate (data : ServerData) (patch : AuthPatch) (row : ServerRow) : ServerRow :=
  { row with
    hostname := data.hostname.getD row.hostname
    ipAddress := if data.ipAddress.isSome then data.ip else row.ipAddress
    dynamicIp := data.dynamicIp.getD row.dynamicIp
    port := data.port.getD row.port
    protocol := data.protocol.getD row.protocol
    environment := data.environment.getD row.environment
    labels := (data.labels.map some).getD row.labels
    sshUser := data.sshUser.getD row.sshUser
    rdpUsername := data.rdpUsername.getD row.rdpUsername
    rdpPasswordEncrypted := (data.secret encrypt).or row.rdpPasswordEncrypted
    authMode := (patch.authMode.or data.authMode).getD row.authMode
    credentialId := (patch.credentialId.or data.credentialId).getD row.credentialId }

def writeRow (serverId : Id) (f : ServerRow → ServerRow) (row : ServerRow) : ServerRow :=
  { if row.id = serverId then f row else row with id := row.id }

theorem writeRow_id {serverId : Id} {f : ServerRow → ServerRow} (row : ServerRow) :
    (writeRow serverId f row).id = row.id := rfl

/-- `server.findFirst` in the scope of the caller. -/
def findServer (s : Store) (orgId serverId : Id) (scope : Scope) : Except ApiError ServerRow :=
  demand ((s.servers.find serverId).filter fun row ↦ row.orgId = orgId ∧ scope.admits row.customerId)
    ⟨404, "Server not found", none⟩

/-- The address of an update, if it names one, fits the kind the server will have. -/
def checkNewAddress (data : ServerData) (existing : ServerRow) : Except ApiError Unit :=
  if data.ipAddress.isSome then checkAddress (data.dynamicIp.getD existing.dynamicIp) data.ip
  else pure ()

def updateServer (s : Store) (orgId serverId : Id) (data : ServerData) (scope : Scope) :
    Except ApiError Store := do
  let existing ← findServer s orgId serverId scope
  checkNewAddress data existing
  let patch ← validateAuthMode s orgId data.authMode data.credentialId
  pure { s with
    servers := s.servers.update (writeRow serverId (applyUpdate encrypt data patch)) writeRow_id }

/-! ## The routes -/

/-- A call of one of the two routes, by a caller of an organization. -/
inductive ServerCall where
  | createServer (orgId : Id) (permissions : List String) (scope : Scope) (customerId : Id)
      (body : ServerData) (id : Id)
  | updateServer (orgId : Id) (permissions : List String) (scope : Scope) (serverId : Id)
      (body : ServerData)

/-- A body that does not fit the schema; the text is the validator's. -/
def invalidBody : ApiError := ⟨400, "", none⟩

def perform (s : Store) : ServerCall → Except ApiError Store
  | .createServer orgId permissions scope customerId body id => do
      requirePermission permissions "servers.create"
      let data ← demand (createSchema body) invalidBody
      assertPermissions permissions (createPermissions data)
      createServer encrypt s orgId customerId data scope id
  | .updateServer orgId permissions scope serverId body => do
      requirePermission permissions "servers.update"
      let data ← demand (updateSchema body) invalidBody
      let current ← findServer s orgId serverId scope
      assertPermissions permissions (updatePermissions data current)
      updateServer encrypt s orgId serverId data scope

/-- A call that is refused changes nothing and is no step. -/
def serve (s : Store) (e : ServerCall) : Option Store := (perform encrypt s e).toOption

/-! ## What must hold between the fields -/

/-- An identity of the organization's Keystore. -/
def OrgCredential (s : Store) (orgId credentialId : Id) : Prop :=
  ∃ c ∈ s.credentials, c.id = credentialId ∧ c.orgId = orgId ∧ c.ownerId = none

/-- A server is reached in one way. -/
structure ServerRow.Sound (s : Store) (row : ServerRow) : Prop where
  credential : row.authMode = .credential →
    ∃ id, row.credentialId = some id ∧ OrgCredential s row.orgId id
  certificate : row.authMode = .certificate → row.credentialId = none
  address : row.dynamicIp = false → validateIp row.ipAddress = true

def ServersSound (s : Store) : Prop := ∀ row ∈ s.servers, row.Sound s

/-- What the body leaves out agrees with what it names: an identity that is set or taken
away without the mode goes with the mode the server has, and a server that is given a
fixed address without naming it has a valid one. -/
def AgreesWith (data : ServerData) (row : ServerRow) : Prop :=
  (data.authMode = none → ∀ c ∈ data.credentialId,
    (row.authMode = .credential ↔ (truthy c).isSome)) ∧
  (data.dynamicIp = some false → data.ipAddress = none → validateIp row.ipAddress = true)

instance (data : ServerData) (row : ServerRow) : Decidable (AgreesWith data row) :=
  inferInstanceAs (Decidable (_ ∧ _))

def Agrees (s : Store) : ServerCall → Prop
  | .createServer .. => True
  | .updateServer _ _ _ serverId body => ∀ row ∈ s.servers.find serverId, AgreesWith body row

instance (s : Store) : (e : ServerCall) → Decidable (Agrees s e)
  | .createServer .. => .isTrue trivial
  | .updateServer _ _ _ serverId body =>
    inferInstanceAs (Decidable (∀ row ∈ s.servers.find serverId, AgreesWith body row))

/-! ## What a call does to a row -/

section

variable {encrypt} {s : Store} {orgId : Id} {data : ServerData} {patch : AuthPatch} {row : ServerRow}

theorem findCredential_ok {credentialId : Id} {c : KeystoreCredential}
    (h : findCredential s orgId credentialId = .ok c) : OrgCredential s orgId credentialId := by
  have hfound := demand_eq_ok.mp h
  have hp := List.find?_some hfound
  exact ⟨c, List.mem_of_find?_eq_some hfound, of_decide_eq_true hp⟩

/-- What passes `validateAuthMode`, and the fields it gives the write. -/
theorem validateAuthMode_ok {authMode : Option ServerAuthMode} {credentialId : Option (Option Id)}
    (h : validateAuthMode s orgId authMode credentialId = .ok patch) :
    (∃ id, authMode = some .credential ∧ OrgCredential s orgId id ∧
      patch = ⟨some .credential, some (some id)⟩) ∨
    (authMode = some .certificate ∧ patch = ⟨some .certificate, some none⟩) ∨
    (authMode = none ∧ patch = ⟨none, credentialId⟩ ∧
      ∀ id, truthy credentialId.join = some id → OrgCredential s orgId id) := by
  cases authMode with
  | none =>
    refine .inr (.inr ?_)
    cases hid : truthy credentialId.join with
    | none =>
      simp only [validateAuthMode, hid, pure_eq_ok] at h
      refine ⟨rfl, h.symm, ?_⟩
      intro id hid
      cases hid
    | some id =>
      simp only [validateAuthMode, hid, bind_eq_ok, pure_eq_ok] at h
      obtain ⟨c, hc, hpatch⟩ := h
      refine ⟨rfl, hpatch.symm, ?_⟩
      rintro _ ⟨⟩
      exact findCredential_ok hc
  | some mode =>
    cases mode with
    | certificate =>
      simp only [validateAuthMode, pure_eq_ok] at h
      exact .inr (.inl ⟨rfl, h.symm⟩)
    | credential =>
      simp only [validateAuthMode, bind_eq_ok, demand_eq_ok, pure_eq_ok] at h
      obtain ⟨id, -, c, hc, hpatch⟩ := h
      exact .inl ⟨id, rfl, findCredential_ok hc, hpatch.symm⟩

theorem createSchema_authMode {body : ServerData} (h : createSchema body = some data) :
    data.authMode.isSome := by
  unfold createSchema at h
  split at h
  · obtain rfl := Option.some.inj h
    rfl
  · cases h

theorem updateSchema_ok {body : ServerData} (h : updateSchema body = some data) :
    data = body ∧ body.credentialId ≠ some (some "") := by
  unfold updateSchema at h
  split at h
  · rename_i hvalid
    obtain rfl := Option.some.inj h
    simp only [ServerData.fieldsValid, decide_eq_true_eq] at hvalid
    exact ⟨rfl, hvalid.2.2.2.2.2⟩
  · cases h

theorem checkAddress_ok {dynamicIp : Bool} {ip : String} {u : Unit}
    (h : checkAddress dynamicIp ip = .ok u) (hdyn : dynamicIp = false) : validateIp ip = true := by
  obtain hip | ⟨hdyn', -⟩ := require_eq_ok.mp h
  · exact hip
  · exact absurd (hdyn.symm.trans hdyn') Bool.false_ne_true

def ServerRow.ModeSound (s : Store) (row : ServerRow) : Prop :=
  (row.authMode = .credential → ∃ id, row.credentialId = some id ∧ OrgCredential s row.orgId id) ∧
    (row.authMode = .certificate → row.credentialId = none)

theorem sound_iff : row.Sound s ↔
    row.ModeSound s ∧ (row.dynamicIp = false → validateIp row.ipAddress = true) :=
  ⟨fun h ↦ ⟨⟨h.credential, h.certificate⟩, h.address⟩, fun h ↦ ⟨h.1.1, h.1.2, h.2⟩⟩

theorem applyUpdate_modeSound_iff (hrow : row.ModeSound s)
    (hpatch : validateAuthMode s row.orgId data.authMode data.credentialId = .ok patch)
    (hid : data.credentialId ≠ some (some "")) :
    (applyUpdate encrypt data patch row).ModeSound s ↔
      (data.authMode = none → ∀ c ∈ data.credentialId,
        (row.authMode = .credential ↔ (truthy c).isSome)) := by
  obtain ⟨id, hmode, hcred, rfl⟩ | ⟨hmode, rfl⟩ | ⟨hmode, rfl, hcred⟩ := validateAuthMode_ok hpatch
  · refine iff_of_true ⟨fun _ ↦ ⟨id, rfl, hcred⟩, fun h ↦ ?_⟩ (by simp [hmode])
    exact absurd h (by simp [applyUpdate])
  · refine iff_of_true ⟨fun h ↦ ?_, fun _ ↦ rfl⟩ (by simp [hmode])
    exact absurd h (by simp [applyUpdate])
  · have hmode' : (applyUpdate encrypt data ⟨none, data.credentialId⟩ row).authMode =
        row.authMode := by
      simp [applyUpdate, hmode]
    cases hc : data.credentialId with
    | none =>
      refine iff_of_true ?_ (by simp)
      simpa [ServerRow.ModeSound, applyUpdate, hmode, hc] using hrow
    | some c =>
      cases c with
      | none =>
        rw [← hmode']
        simp [ServerRow.ModeSound, applyUpdate, hmode, hc]
      | some id =>
        have hne : truthy (some id) = some id :=
          truthy_eq_some.mpr ⟨rfl, fun h ↦ hid (by rw [hc, h])⟩
        have hfound := hcred id (by rw [hc]; exact hne)
        cases hrowMode : row.authMode <;>
          simp [ServerRow.ModeSound, applyUpdate, hmode, hc, hne, hrowMode, hfound]

theorem applyUpdate_address_iff
    (hrow : row.dynamicIp = false → validateIp row.ipAddress = true)
    (hip : data.ipAddress.isSome → data.dynamicIp.getD row.dynamicIp = false →
      validateIp data.ip = true) :
    ((applyUpdate encrypt data patch row).dynamicIp = false →
        validateIp (applyUpdate encrypt data patch row).ipAddress = true) ↔
      (data.dynamicIp = some false → data.ipAddress = none → validateIp row.ipAddress = true) := by
  cases haddr : data.ipAddress with
  | some ip =>
    refine iff_of_true ?_ (fun _ h ↦ nomatch h)
    simpa [applyUpdate, haddr] using hip
  | none =>
    cases hdyn : data.dynamicIp with
    | none => simpa [applyUpdate, haddr, hdyn] using hrow
    | some dynamicIp => simp [applyUpdate, haddr, hdyn]

theorem createServer_sound {s' : Store} {customerId id : Id} {scope : Scope} (hs : ServersSound s)
    (hmode : data.authMode.isSome)
    (h : createServer encrypt s orgId customerId data scope id = .ok s') : ServersSound s' := by
  simp only [createServer, bind_eq_ok, require_eq_ok, demand_eq_ok, pure_eq_ok] at h
  obtain ⟨-, -, -, -, -, -, hostname, -, _, hip, patch, hpatch, servers, hins, rfl⟩ := h
  obtain ⟨hfree, rfl⟩ := Keyed.insert?_eq_some.mp hins
  intro row hrow
  obtain hrow | rfl := (Keyed.mem_insert hfree).mp hrow
  · exact ⟨(hs row hrow).credential, (hs row hrow).certificate, (hs row hrow).address⟩
  refine sound_iff.mpr ⟨?_, ?_⟩
  · obtain ⟨cid, -, hcred, rfl⟩ | ⟨-, rfl⟩ | ⟨hnone, -⟩ := validateAuthMode_ok hpatch
    · refine ⟨fun _ ↦ ⟨cid, rfl, hcred⟩, ?_⟩
      intro h
      cases h
    · refine ⟨?_, fun _ ↦ rfl⟩
      intro h
      cases h
    · rw [hnone] at hmode
      cases hmode
  · intro hdyn
    refine checkAddress_ok hip (decide_eq_false ?_)
    intro htrue
    have hdyn : data.dynamicIp.getD false = false := hdyn
    rw [htrue] at hdyn
    cases hdyn

theorem updateServer_sound_iff {s' : Store} {serverId : Id} {scope : Scope} (hs : ServersSound s)
    (hid : data.credentialId ≠ some (some ""))
    (h : updateServer encrypt s orgId serverId data scope = .ok s') :
    ServersSound s' ↔ ∀ row ∈ s.servers.find serverId, AgreesWith data row := by
  simp only [updateServer, findServer, bind_eq_ok, demand_eq_ok, pure_eq_ok,
    Option.filter_eq_some_iff, decide_eq_true_eq] at h
  obtain ⟨row, ⟨hfind, horg, -⟩, _, hip, patch, hpatch, rfl⟩ := h
  have hrow := hs row (Keyed.mem_of_find hfind)
  have hkey : row.id = serverId := (Keyed.find_eq_some.mp hfind).2
  have hip : data.ipAddress.isSome → data.dynamicIp.getD row.dynamicIp = false →
      validateIp data.ip = true := by
    intro hsome hdyn
    rw [checkNewAddress, if_pos hsome] at hip
    exact checkAddress_ok hip hdyn
  have hwritten : (applyUpdate encrypt data patch row).Sound s ↔ AgreesWith data row := by
    rw [sound_iff, applyUpdate_modeSound_iff (sound_iff.mp hrow).1 (horg ▸ hpatch) hid,
      applyUpdate_address_iff hrow.address hip, AgreesWith]
  rw [hfind]
  constructor
  · intro hs' _ hmem
    obtain rfl := Option.some.inj hmem
    refine hwritten.mp ?_
    have hnew := hs' _ ((Keyed.mem_update writeRow_id).mpr
      ⟨row, Keyed.mem_of_find hfind, rfl⟩)
    rw [writeRow, if_pos hkey] at hnew
    exact ⟨hnew.credential, hnew.certificate, hnew.address⟩
  · intro hagrees row' hrow'
    obtain ⟨other, hother, rfl⟩ := (Keyed.mem_update writeRow_id).mp hrow'
    have hsound : (if other.id = serverId then applyUpdate encrypt data patch other
        else other).Sound s := by
      split
      · rename_i hid'
        obtain rfl := Keyed.ext hother (Keyed.mem_of_find hfind) (hid'.trans hkey.symm)
        exact hwritten.mpr (hagrees _ rfl)
      · exact hs other hother
    exact ⟨hsound.credential, hsound.certificate, hsound.address⟩

theorem serve_sound_iff {s' : Store} {e : ServerCall} (hs : ServersSound s)
    (h : serve encrypt s e = some s') : ServersSound s' ↔ Agrees s e := by
  replace h := toOption_eq_some.mp h
  cases e with
  | createServer orgId permissions scope customerId body id =>
    simp only [perform, bind_eq_ok, demand_eq_ok] at h
    obtain ⟨_, -, data, hbody, _, -, h⟩ := h
    exact iff_of_true (createServer_sound hs (createSchema_authMode hbody) h) trivial
  | updateServer orgId permissions scope serverId body =>
    simp only [perform, bind_eq_ok, demand_eq_ok] at h
    obtain ⟨_, -, data, hbody, row, -, _, -, h⟩ := h
    obtain ⟨rfl, hid⟩ := updateSchema_ok hbody
    exact updateServer_sound_iff hs hid h

end

/-! ## Runs of calls -/

/-- In every run of calls from servers that are each reached in one way, they are so after
each call just when every update agrees with the server it is about. -/
theorem run_serversSound_iff {s t : Store} {es : List ServerCall} (h₀ : ServersSound s) :
    Run (serve encrypt) (fun _ _ s ↦ ServersSound s) s es t ↔
      Run (serve encrypt) (fun s e _ ↦ Agrees s e) s es t := by
  constructor
  · intro hrun
    refine hrun.mono_of_invariant (I := ServersSound) h₀ ?_
    intro s e s' hs hstep hkept
    exact ⟨hkept, (serve_sound_iff hs hstep).mp hkept⟩
  · intro hrun
    refine hrun.mono_of_invariant (I := ServersSound) h₀ ?_
    intro s e s' hs hstep hagrees
    have hkept := (serve_sound_iff hs hstep).mpr hagrees
    exact ⟨hkept, hkept⟩

/-! ## An identity taken away -/

def emptyInventory : Store where
  customers := [{ id := "acme", orgId := "o1" }]
  credentials := [{ id := "deploy-key", username := "deploy", orgId := "o1" }]

theorem emptyInventory_sound : ServersSound emptyInventory := fun _ h ↦ absurd h Keyed.notMem_empty

def createDb : ServerCall :=
  .createServer "o1" ["servers.create", "servers.manage_credentials"] .unscoped "acme"
    { hostname := some "db", ipAddress := some (some "10.0.0.1"), authMode := some .credential,
      credentialId := some (some "deploy-key") } "s1"

def updateDb (body : ServerData) : ServerCall :=
  .updateServer "o1" ["servers.update", "servers.manage_credentials"] .unscoped "s1" body

theorem run_serversSound_iff_certificate : ∃ t,
    Run (serve id) (fun _ _ s ↦ ServersSound s) emptyInventory
      [createDb, updateDb { authMode := some .certificate }] t := by
  have h : execIf (serve id) (fun s e ↦ decide (Agrees s e)) emptyInventory
      [createDb, updateDb { authMode := some .certificate }] = some _ := rfl
  exact ⟨_, (run_serversSound_iff id emptyInventory_sound).mpr
    ((run_of_execIf h).mono fun _ _ _ ↦ of_decide_eq_true)⟩

/-- Its identity is taken away, and it is still to be reached with one. -/
theorem identity_taken_away : ∃ t,
    ServersSound emptyInventory ∧
    Run (serve id) free emptyInventory [createDb, updateDb { credentialId := some none }] t ∧
    (∃ row ∈ t.servers, row.authMode = .credential ∧ row.credentialId = none) ∧
    ¬ ServersSound t := by
  have h : exec (serve id) emptyInventory
      [createDb, updateDb { credentialId := some none }] = some _ := rfl
  refine ⟨_, emptyInventory_sound, run_of_exec h, ⟨_, List.mem_singleton_self _, rfl, rfl⟩, ?_⟩
  intro hs
  obtain ⟨_, hid, -⟩ := (hs _ (List.mem_singleton_self _)).credential rfl
  cases hid

end Shellius.Servers
