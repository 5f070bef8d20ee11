import Shellius.Access.Certificate
import Shellius.Ca.KeyPairs

/-!
# Direct issue

`certificateService.issue`, which signs a certificate without an access request.
It puts every requested principal to `evaluate` and clamps the validity to each
answer.  `signCertificate` then hands the principals to `ssh-keygen` in one
argument, separated by commas; so what is in the certificate is what
`ssh-keygen` reads out of that argument.
-/

namespace Shellius

open Lib

/-! ## The function -/

/-- The parameters of `issue`. -/
structure IssueParams where
  orgId : Id
  userId : Id
  serverId : Id
  principals : List String
  validitySeconds : Int
  publicKey : String
  keyId : Option String := none
  certType : CertType := .user
  extensions : List (String × Option String) := []
  criticalOptions : List (String × String) := []
  issuedVia : String := "web"
  scope : Scope := .unscoped

/-- The columns of a certificate row that only `issue` fills in. -/
structure IssuedCertificate extends Certificate where
  caKeyPairId : Id
  publicKey : String
  signedCert : KeygenArgs
  extensions : Option (List (String × Option String))
  issuedVia : String

/-- The tables `issue` reads and writes, and every certificate `ssh-keygen` has
signed for it. -/
structure IssueStore where
  caKeyPairs : List CaKeyPair
  certificates : List IssuedCertificate := []
  signed : List KeygenArgs := []

/-- The checks of `issue` on its parameters. -/
def checkIssue (params : IssueParams) : Except ApiError Unit :=
  let badExt := (params.extensions.map Prod.fst).filter fun k ↦ k ∉ standardPermits
  if params.orgId = "" then .error ⟨400, "orgId is required", none⟩
  else if params.serverId = "" then .error ⟨400, "serverId is required", none⟩
  else if params.certType ≠ .user then
    .error ⟨400, "Only USER certificates can be issued directly", none⟩
  else if badExt ≠ [] then
    .error ⟨400, "Unsupported certificate extension(s): " ++ ", ".intercalate badExt, none⟩
  else if params.criticalOptions ≠ [] then
    .error ⟨400, "Critical options cannot be set on directly issued certificates", none⟩
  else if params.userId = "" then .error ⟨400, "userId is required", none⟩
  else if params.publicKey = "" then .error ⟨400, "publicKey is required", none⟩
  else if params.principals = [] then
    .error ⟨400, "principals must be a non-empty array", none⟩
  else if params.validitySeconds ≤ 0 then
    .error ⟨400, "validitySeconds must be positive", none⟩
  else if 604800 < params.validitySeconds then
    .error ⟨400, "validitySeconds may not exceed 604800 (7 days)", none⟩
  else .ok ()

/-- The question `issue` asks about one principal. -/
def issueQuestion (params : IssueParams) (principal : String) : EvaluateParams where
  orgId := params.orgId
  userId := params.userId
  serverId := params.serverId
  requestedPrincipal := some principal

/-- The loop over the principals; the seconds left once all of them passed. -/
def evaluatePrincipals (db : Database) (params : IssueParams) (server : Server) :
    List String → Int → Except ApiError Int
  | [], validitySeconds => .ok validitySeconds
  | principal :: rest, validitySeconds =>
    match evaluate db (issueQuestion params principal) with
    | .error e => .error e
    | .ok policyResult =>
      if policyResult.requiresApproval then
        if server.environment = .prod ∧ ¬ policyResult.allowed then
          .error ⟨403, "Production access requires an approved access request " ++
            "(phase 7 approval flow)", none⟩
        else .error ⟨403, "Access requires approval (phase 7 approval flow)", none⟩
      else if ¬ policyResult.allowed then
        .error ⟨403, "Access denied by policy: " ++ policyResult.reason.getD "undefined", none⟩
      else
        evaluatePrincipals db params server rest
          (if 0 < policyResult.maxTtl ∧ policyResult.maxTtl < validitySeconds then
            policyResult.maxTtl else validitySeconds)

/-- Everything `issue` checks before it signs; the user and the seconds. -/
def authoriseIssue (db : Database) (params : IssueParams) : Except ApiError (User × Int) :=
  match checkIssue params with
  | .error e => .error e
  | .ok () =>
    match db.user params.orgId params.userId with
    | none => .error ⟨404, "User not found in organization", none⟩
    | some user =>
      match db.server params.orgId params.serverId with
      | none => .error ⟨404, "Server not found in organization", none⟩
      | some server =>
        if ¬ inScope params.scope server then .error ⟨404, "Server not found", none⟩
        else if server.environment = .prod then
          .error ⟨403, "Production certificates are only issued for an approved " ++
            "access request", none⟩
        else
          (evaluatePrincipals db params server params.principals
            params.validitySeconds).map fun seconds ↦ (user, seconds)

/-- What `issue` asks `signCertificate` for. -/
def signParamsOf (params : IssueParams) (user : User) (seconds : Int) : SignParams where
  orgId := params.orgId
  publicKey := params.publicKey
  principals := params.principals
  validitySeconds := seconds
  certType := params.certType
  keyId := ((truthy params.keyId).or (truthy (some user.email))).getD params.userId
  extensions := params.extensions
  criticalOptions := params.criticalOptions

/-- `data` of `certificate.create`. -/
def issuedRow (id : Id) (now : Millis) (params : IssueParams) (args : KeygenArgs) :
    IssuedCertificate where
  id := id
  orgId := params.orgId
  caKeyPairId := args.caKey.id
  serial := args.serial
  keyId := args.identity
  principals := params.principals
  publicKey := params.publicKey
  signedCert := args
  validAfter := now
  validBefore := now + args.validity * 1000
  extensions := if params.extensions = [] then none else some params.extensions
  issuedToId := some params.userId
  issuedForId := some params.serverId
  issuedVia := params.issuedVia

/-- `issue`, with the serial number and the row id it draws.  `sshKeygen` is what
`ssh-keygen` makes of the argument of its `-n` option: the names in the
certificate, or nothing when it refuses to sign. -/
def issue (sshKeygen : String → Option (List String)) (db : Database) (st : IssueStore)
    (now : Millis) (serial : Nat) (id : Id) (params : IssueParams) :
    IssueStore × Except ApiError IssuedCertificate :=
  match authoriseIssue db params with
  | .error e => (st, .error e)
  | .ok (user, seconds) =>
    let sign := signParamsOf params user seconds
    match checkSign sign with
    | .error e => (st, .error e)
    | .ok () =>
      match activeKey st.caKeyPairs params.orgId with
      | none => (st, .error ⟨404, "No active CA key pair found for organization", none⟩)
      | some caKey =>
        let args := keygenArgs sign caKey serial
        match sshKeygen args.principals with
        | none => (st, .error ⟨500, "Internal server error", none⟩)
        | some _ =>
          let row := issuedRow id now params args
          ({ st with
              signed := args :: st.signed
              certificates := st.certificates ++ [row] }, .ok row)

end Shellius
