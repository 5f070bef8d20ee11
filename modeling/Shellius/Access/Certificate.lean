import Shellius.Jit.Manifest

/-!
# Certificates

`generateSshCredentials`, which signs a certificate for the time an approved
request has left, `caService.revokeCertificate`, and `certificateService.verify`,
which a host asks about a certificate somebody logs in with.

The signing itself is `ssh-keygen`'s: an operation is given the serial number
and the row id that came of it, or that nothing did.
-/

namespace Shellius

open Lib

structure Certificate where
  id : Id
  orgId : Id
  serial : Int
  keyId : String
  principals : List String
  validAfter : Millis
  validBefore : Millis
  status : CertStatus := .active
  issuedToId : Option Id := none
  issuedForId : Option Id := none

/-- `ar-${requestId}` -/
def certKeyId (requestId : Id) : String := "ar-" ++ requestId

theorem certKeyId_injective : Function.Injective certKeyId := fun _ _ h ↦ by
  have := congrArg String.toList h
  simpa [certKeyId, String.ext_iff] using this

/-! ## Issuing -/

/-- The parameters of `generateSshCredentials`. -/
structure GenerateParams where
  requestId : Id
  callerId : Id
  callerPermissions : List String := []
  principalOverride : Option String := none

/-- What became of the signing: the key of the new row and the serial number. -/
structure Signed where
  id : Id
  serial : Int

/-- `LINUX_USER_RE` -/
def isLinuxUser (s : String) : Bool :=
  match s.toList with
  | [] => false
  | c :: cs => (('a' ≤ c && c ≤ 'z') || c = '_') &&
      (cs.all fun c ↦ isLowerAlnum c || c = '_' || c = '-') && decide (cs.length ≤ 31)

/-- `server.sshUser || 'root'` -/
def legacySshUser (server : Server) : String := (truthy (some server.sshUser)).getD "root"

/-- The checks of `generateSshCredentials` on the row it found; the seconds the
request has left. -/
def checkGenerate (now : Millis) (params : GenerateParams) (r : AccessRequest) :
    Except ApiError Int :=
  if r.requesterId ≠ params.callerId then
    .error ⟨403, "Only the requester may download credentials for this request", none⟩
  else if r.status ≠ .approved then
    .error ⟨409, "Access request is not approved (status: " ++ r.status.text ++ ")", none⟩
  else
    match r.expiresAt.filter fun t ↦ now < t with
    | none => .error ⟨410, "Access request has expired", none⟩
    | some expiresAt =>
      let remainingSeconds := (expiresAt - now) / 1000
      if remainingSeconds < 60 then
        .error ⟨410, "Access request expires too soon to issue credentials (< 60s remaining)",
          none⟩
      else .ok remainingSeconds

/-- The principal the certificate is for: the one of the request, or an override
that the caller may choose. -/
def primaryPrincipal (db : Database) (params : GenerateParams) (r : AccessRequest)
    (server : Server) : Except ApiError String :=
  match truthy params.principalOverride with
  | none => .ok r.requestedPrincipal
  | some principal =>
    if ¬ isLinuxUser principal then
      .error ⟨400, "principalOverride is not a valid Linux username", none⟩
    else if principal = r.requestedPrincipal ∨ principal = legacySshUser server then
      .ok principal
    else if "access.choose_principal" ∉ params.callerPermissions then
      .error ⟨403, "Principal \"" ++ principal ++ "\" is not allowed for this connection.", none⟩
    else
      match evaluate db
          { orgId := r.orgId
            userId := params.callerId
            serverId := server.id
            requestedPrincipal := some principal } with
      | .error e => .error e
      | .ok check =>
        if check.requiresApproval then
          .error ⟨403, "Connecting as \"" ++ principal ++ "\" needs its own approved request.",
            none⟩
        else if ¬ check.allowed then
          .error ⟨403, "Principal \"" ++ principal ++ "\" is not allowed by policy: " ++
            check.reason.getD "undefined", none⟩
        else .ok principal

def certificateRow (now : Millis) (params : GenerateParams) (signed : Signed) (r : AccessRequest)
    (server : Server) (primary : String) (remainingSeconds : Int) : Certificate where
  id := signed.id
  orgId := r.orgId
  serial := signed.serial
  keyId := certKeyId params.requestId
  principals := primary :: [legacySshUser server].filter fun u ↦ u ≠ primary
  validAfter := now
  validBefore := now + remainingSeconds * 1000
  issuedToId := some params.callerId
  issuedForId := some server.id

/-- `generateSshCredentials` on the row it found and its server: the certificate
row it creates, if the signing succeeds. -/
def generateSshCredentials (db : Database) (now : Millis) (params : GenerateParams)
    (signed : Option Signed) (r : AccessRequest) (server : Server) : Except ApiError Certificate :=
  match checkGenerate now params r with
  | .error e => .error e
  | .ok remainingSeconds =>
    match primaryPrincipal db params r server with
    | .error e => .error e
    | .ok primary =>
      match signed with
      | none => .error ⟨404, "No active CA key pair found for organization", none⟩
      | some signed => .ok (certificateRow now params signed r server primary remainingSeconds)

/-- `caService.revokeCertificate`, on the rows of the table. -/
def revokeCertificate (certificates : List Certificate) (certId : Id) :
    Except ApiError (List Certificate) :=
  match lookup Certificate.id certId certificates with
  | none => .error ⟨404, "Certificate not found", none⟩
  | some cert =>
    if cert.status = .revoked then .error ⟨409, "Certificate is already revoked", none⟩
    else .ok (modify Certificate.id certId (fun c ↦ { c with status := .revoked }) certificates)

/-- The revocation of the certificate a request is linked to, whose failure is
logged and otherwise ignored. -/
def revokeLinked (certificateId : Option Id) (certificates : List Certificate) :
    List Certificate :=
  match truthy certificateId with
  | none => certificates
  | some certId => (revokeCertificate certificates certId).toOption.getD certificates

section

variable {certificateId : Option Id} {certificates : List Certificate} {c c' : Certificate}
  {db : Database} {now : Millis} {params : GenerateParams} {signed : Option Signed}
  {r : AccessRequest} {server : Server}

theorem checkGenerate_ok {remainingSeconds : Int}
    (h : checkGenerate now params r = .ok remainingSeconds) :
    r.status = .approved ∧ ∃ t, r.expiresAt = some t ∧ remainingSeconds = (t - now) / 1000 ∧
      60 ≤ remainingSeconds := by
  unfold checkGenerate at h
  split at h
  · cases h
  split at h
  · cases h
  rename_i hstatus
  split at h
  · cases h
  rename_i t ht
  simp only at h
  split at h
  · cases h
  · rename_i hlong
    obtain rfl := Except.ok.inj h
    exact ⟨not_not.mp hstatus, t, (Option.filter_eq_some_iff.mp ht).1, rfl, not_lt.mp hlong⟩

theorem generateSshCredentials_ok
    (h : generateSshCredentials db now params signed r server = .ok c) :
    ∃ s remainingSeconds primary, signed = some s ∧
      checkGenerate now params r = .ok remainingSeconds ∧
      c = certificateRow now params s r server primary remainingSeconds := by
  unfold generateSshCredentials at h
  split at h
  · cases h
  rename_i remainingSeconds hcheck
  split at h
  · cases h
  rename_i primary hprimary
  split at h
  · cases h
  rename_i s
  exact ⟨s, remainingSeconds, primary, rfl, hcheck, (Except.ok.inj h).symm⟩

theorem legacySshUser_ne_empty (server : Server) : legacySshUser server ≠ "" := by
  unfold legacySshUser
  cases h : truthy (some server.sshUser) with
  | none => simp
  | some u => exact (truthy_eq_some.mp h).2

theorem legacySshUser_mem_principals {s : Signed} {primary : String} {remainingSeconds : Int} :
    legacySshUser server ∈
      (certificateRow now params s r server primary remainingSeconds).principals := by
  by_cases h : legacySshUser server = primary
  · simp [certificateRow, h]
  · simp [certificateRow, h]

theorem certificateRow_validBefore_le {s : Signed} {primary : String} {t : Millis} :
    (certificateRow now params s r server primary ((t - now) / 1000)).validBefore ≤ t := by
  have h : (t - now) / 1000 * 1000 ≤ t - now := Int.ediv_mul_le _ (by decide)
  exact Int.add_le_of_le_sub_left h

theorem mem_revokeLinked (h : c' ∈ revokeLinked certificateId certificates) :
    c' ∈ certificates ∨
      ∃ c ∈ certificates, truthy certificateId = some c.id ∧ c' = { c with status := .revoked } := by
  unfold revokeLinked revokeCertificate at h
  split at h
  · exact .inl h
  rename_i certId hid
  split at h
  · exact .inl h
  split at h
  · exact .inl h
  · rcases mem_modify.mp h with ⟨h, -⟩ | ⟨c, hc, hcid, rfl⟩
    · exact .inl h
    · exact .inr ⟨c, hc, hcid ▸ hid, rfl⟩

theorem mem_revokeLinked_of_ne (h : c ∈ certificates) (hid : truthy certificateId ≠ some c.id) :
    c ∈ revokeLinked certificateId certificates := by
  unfold revokeLinked revokeCertificate
  split
  · exact h
  rename_i certId htruthy
  split
  · exact h
  split
  · exact h
  · exact mem_modify.mpr (.inl ⟨h, fun he ↦ hid (he ▸ htruthy)⟩)

theorem map_revokeLinked {β : Type*} {g : Certificate → β}
    (hg : ∀ c : Certificate, g { c with status := .revoked } = g c) :
    (revokeLinked certificateId certificates).map g = certificates.map g := by
  unfold revokeLinked revokeCertificate
  split
  · rfl
  split
  · rfl
  split
  · rfl
  · exact map_modify fun c _ _ ↦ hg c

theorem revokeLinked_revokes (hkey : (certificates.map Certificate.id).Nodup)
    (h : c ∈ revokeLinked certificateId certificates) (hid : truthy certificateId = some c.id) :
    c.status = .revoked := by
  unfold revokeLinked revokeCertificate at h
  simp only [hid] at h
  split at h
  · rename_i hnone
    exact absurd rfl (lookup_eq_none.mp hnone c h)
  · rename_i cert hcert
    obtain ⟨hmem, hcid⟩ := lookup_spec hcert
    split at h
    · rename_i hrev
      obtain rfl := List.inj_on_of_nodup_map hkey h hmem hcid.symm
      exact hrev
    · rcases mem_modify.mp h with ⟨-, hne⟩ | ⟨-, -, -, rfl⟩
      · exact absurd rfl hne
      · rfl

end

/-! ## Verifying -/

/-- The serial number of a query, which `BigInt` may refuse. -/
inductive SerialNumber where
  | missing
  | malformed
  | number (n : Int)

/-- The host that asks, when it authenticated as one. -/
structure AgentServer where
  id : Id
  orgId : Id

/-- The parameters of `verify`. -/
structure VerifyParams where
  serial : SerialNumber
  principal : String
  agentServer : Option AgentServer := none

/-- What `verify` answers. -/
structure VerifyResult where
  valid : Bool
  reason : Option String := none
  principals : List String := []
  validBefore : Option Millis := none
  manifest : Option Manifest := none

def refuse (reason : String) : VerifyResult := { valid := false, reason := some reason }

def isDisabledStatus (status : UserStatus) : Bool :=
  status = .deleted ∨ status = .suspended ∨ status = .deactivated

/-- The reason `verify` has to refuse a certificate it found, from its row
alone. -/
def refusal (checkUserStatus : Bool) (db : Database) (now : Millis) (params : VerifyParams)
    (cert : Certificate) : Option String :=
  if cert.status = .revoked then some "certificate revoked"
  else if cert.status = .expired then some "certificate expired"
  else if checkUserStatus ∧ (cert.issuedToId.bind fun u ↦ lookup User.id u db.users).any
      fun u ↦ isDisabledStatus u.status then some "certificate owner is not active"
  else if cert.validBefore ≤ now then some "certificate has expired"
  else if now < cert.validAfter then some "certificate not yet valid"
  else if params.principal ∉ cert.principals then some "principal not in certificate"
  else if params.agentServer.any fun s ↦
      cert.orgId ≠ s.orgId ∨ cert.issuedForId ≠ some s.id then
    some "certificate not issued for this host"
  else none

def stillApproved (now : Millis) (r : AccessRequest) : Bool :=
  r.status = .approved ∧ r.expiresAt.all fun t ↦ now < t

/-- `verify`, with the user rows it leaves: building the manifest may give the
user a UID. -/
def verifyCertificate (checkUserStatus : Bool) (db : Database)
    (accessRequests : List AccessRequest) (certificates : List Certificate) (now : Millis)
    (params : VerifyParams) : VerifyResult × List User :=
  match params.serial with
  | .missing => (refuse "serial is required", db.users)
  | .malformed =>
    (refuse (if params.principal = "" then "principal is required" else "invalid serial format"),
      db.users)
  | .number serial =>
    if params.principal = "" then (refuse "principal is required", db.users)
    else
      match lookup Certificate.serial serial certificates with
      | none => (refuse "certificate not found", db.users)
      | some cert =>
        match refusal checkUserStatus db now params cert with
        | some reason => (refuse reason, db.users)
        | none =>
          let result : VerifyResult :=
            { valid := true
              principals := cert.principals
              validBefore := some cert.validBefore }
          match accessRequests.find? fun r ↦ r.certificateId = some cert.id with
          | none => (result, db.users)
          | some r =>
            if stillApproved now r then
              let (manifest, users) := buildManifest db accessRequests now r.id
              ({ result with manifest }, users)
            else if params.agentServer.isSome then
              (refuse "access request is no longer approved", db.users)
            else (result, db.users)

/-! ### What it takes to be valid -/

section

variable {checkUserStatus : Bool} {db : Database} {accessRequests : List AccessRequest}
  {certificates : List Certificate} {now : Millis} {params : VerifyParams} {cert : Certificate}

theorem refusal_of_dead (h : cert.status ≠ .active ∨ cert.validBefore ≤ now) :
    refusal checkUserStatus db now params cert ≠ none := by
  unfold refusal
  rcases h with h | h
  · cases hs : cert.status <;> simp_all
  · simp only [h, if_true]
    split <;> [simp; split <;> [simp; split <;> simp]]

theorem refusal_eq_none (hs : cert.status = .active) (ha : cert.validAfter ≤ now)
    (hb : now < cert.validBefore) {principal : String} (hp : principal ∈ cert.principals)
    (hu : db.users = []) {serial : SerialNumber} :
    refusal checkUserStatus db now { serial, principal } cert = none := by
  have hnone : (cert.issuedToId.bind fun u ↦ lookup User.id u db.users) = none := by
    cases cert.issuedToId <;> simp [hu, lookup]
  simp [refusal, hs, hnone, hp, Int.not_le.mpr hb, Int.not_lt.mpr ha]

/-- `verify` refuses what its row alone rules out. -/
theorem verifyCertificate_of_refusal
    (hc : lookup Certificate.serial cert.serial certificates = some cert)
    (h : refusal checkUserStatus db now params cert ≠ none)
    (hs : params.serial = .number cert.serial) :
    (verifyCertificate checkUserStatus db accessRequests certificates now params).1.valid =
      false := by
  obtain ⟨reason, hr⟩ := Option.ne_none_iff_exists'.mp h
  simp only [verifyCertificate, hs]
  split
  · rfl
  · simp [hc, hr, refuse]

/-- To a legacy caller, `verify` says that everything else is valid. -/
theorem verifyCertificate_of_no_refusal (accessRequests : List AccessRequest)
    (hc : lookup Certificate.serial cert.serial certificates = some cert) {principal : String}
    (hp : principal ≠ "")
    (h : refusal checkUserStatus db now { serial := .number cert.serial, principal } cert = none) :
    (verifyCertificate checkUserStatus db accessRequests certificates now
      { serial := .number cert.serial, principal }).1.valid = true := by
  simp only [verifyCertificate, hp, if_false, hc, h]
  split
  · rfl
  · split
    · rfl
    · rfl

end

end Shellius
