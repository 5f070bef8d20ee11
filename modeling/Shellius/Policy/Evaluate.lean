import Shellius.Lib.Select
import Shellius.Permissions
import Shellius.Text

/-!
# Policy evaluation

`policyService`: which policies concern a user and a server, and what they say
about access.  `evaluate` answers for one server, `evaluateBulk` for a list of
them, and `findApproverPolicy` and `findBreakGlassPolicy` select the policy that
routes a request to its approvers or opens break-glass.
-/

namespace Shellius

open Lib

/-! ## Who is asking -/

/-- What `loadSubject` returns. -/
structure Subject where
  permissions : List String
  roleKeys : List String

/-- `loadSubject`: the effective permissions of a user, and the role keys that
ROLE policy subjects are compared with. -/
def loadSubject (db : Database) (userId orgId : Id) : Subject :=
  match db.user orgId userId with
  | none => ⟨[], []⟩
  | some u =>
    let assigned := db.assignedRole u
    let keys := [some u.role.key, assigned.map Role.key].filterMap truthy
    ⟨permissionsForUser u.role assigned, keys.eraseDups⟩

def resolveUserGroupIds (db : Database) (userId orgId : Id) : List Id :=
  (db.groupMemberships.filter fun m ↦ m.userId = userId ∧
    db.groups.any fun g ↦ g.id = m.groupId ∧ g.orgId = orgId).map GroupMembership.groupId

/-! ## Which policies match -/

/-- One alternative of the subject filter: the user, one of their groups, or one
of their role keys. -/
def subjectMatches (userId : Id) (userGroupIds : List Id) (roleKeys : List String)
    (s : PolicySubject) : Bool :=
  match s.subjectType with
  | .user => s.subjectId = userId
  | .group => s.subjectId ∈ userGroupIds
  | .role => s.subjectId ∈ roleKeys

/-- The `where` clause of `loadMatchingPolicies`. -/
def concerns (orgId userId : Id) (userGroupIds : List Id) (roleKeys : List String)
    (p : AccessPolicy) : Bool :=
  p.orgId = orgId ∧ p.isActive ∧ p.subjects.any (subjectMatches userId userGroupIds roleKeys)

/-- `loadMatchingPolicies`, ordered by effect and then by priority. -/
def loadMatchingPolicies (db : Database) (orgId userId : Id) (userGroupIds : List Id)
    (roleKeys : List String) : List AccessPolicy :=
  sortOn (fun p ↦ toLex (p.effect.rank, p.priority))
    (db.accessPolicies.filter (concerns orgId userId userGroupIds roleKeys))

/-- `labelsMatch`: every `key: value` of the policy is a `"key:value"` label of
the server. -/
def labelsMatch (serverLabels : Option (List String))
    (targetLabels : Option (List (String × String))) : Bool :=
  match targetLabels with
  | none => true
  | some entries => entries.all fun (k, v) ↦ (k ++ ":" ++ v) ∈ serverLabels.getD []

/-- The first four tests of `filterPolicies`: customer, environment, labels and
server list. -/
def targetMatches (server : Server) (serverId : Id) (p : AccessPolicy) : Bool :=
  (p.customerId = none ∨ p.customerId = some server.customerId) ∧
    (p.targetEnvironments = [] ∨ server.environment ∈ p.targetEnvironments) ∧
    labelsMatch server.labels p.targetLabels ∧
    (p.targetServerIds = [] ∨ serverId ∈ p.targetServerIds)

/-- The last test of `filterPolicies`: the principal, where the server has
principals at all. -/
def principalMatches (server : Server) (requestedPrincipal : Option String)
    (p : AccessPolicy) : Bool :=
  match truthy requestedPrincipal with
  | none => true
  | some r => p.allowedPrincipals = [] ∨ server.authMode = .credential ∨ r ∈ p.allowedPrincipals

def filterPolicies (policies : List AccessPolicy) (server : Server) (serverId : Id)
    (requestedPrincipal : Option String) : List AccessPolicy :=
  policies.filter fun p ↦
    targetMatches server serverId p && principalMatches server requestedPrincipal p

/-- `policies.find((p) => p.effect === 'DENY')` -/
def findDeny (policies : List AccessPolicy) : Option AccessPolicy :=
  policies.find? fun p ↦ p.effect = .deny

/-- The first of the ALLOW policies among `policies` once sorted by priority. -/
def bestAllow (policies : List AccessPolicy) : Option AccessPolicy :=
  (sortOn AccessPolicy.priority (policies.filter fun p ↦ p.effect = .allow)).head?

/-- The policies of the organization that match a user, a server and a
principal, as every caller below computes them. -/
def matchingPolicies (db : Database) (orgId userId : Id) (server : Server) (serverId : Id)
    (requestedPrincipal : Option String) : List AccessPolicy :=
  filterPolicies
    (loadMatchingPolicies db orgId userId (resolveUserGroupIds db userId orgId)
      (loadSubject db userId orgId).roleKeys)
    server serverId requestedPrincipal

/-! ## Evaluation -/

/-- What `evaluate` answers; a property the source leaves out is `none` or
`false`. -/
structure Evaluation where
  allowed : Bool
  requiresApproval : Bool
  autoApprove : Bool
  reason : Option String := none
  principals : List String := []
  maxTtl : Int := 0
  policyId : Option Id := none
  policyName : Option String := none
  draft : Bool := false
  prodBypass : Bool := false

/-- The answer when a DENY policy matches. -/
def deniedBy (p : AccessPolicy) : Evaluation where
  allowed := false
  requiresApproval := false
  autoApprove := false
  reason := some ("Denied by policy " ++ p.name)
  policyId := some p.id

/-- The answer of the `access.bypass_policies` branch. -/
def evaluateBypass (matching : List AccessPolicy) (isProd : Bool)
    (requestedPrincipal : Option String) : Evaluation :=
  match findDeny matching with
  | some deny => deniedBy deny
  | none =>
    { allowed := true
      requiresApproval := false
      autoApprove := true
      principals := (truthy requestedPrincipal).toList
      maxTtl := 24 * 60 * 60
      reason := some (if isProd then "policy bypass (prod)" else "policy bypass")
      prodBypass := isProd }

/-- A draft policy from the request body, with the defaults of
`draftPolicySchema`. -/
structure DraftPolicy where
  policy : AccessPolicy
  /-- Whether the body has a `customerId`.  A missing one is neither `null` nor
  any customer. -/
  hasCustomerId : Bool

def evaluateDraft (draft : DraftPolicy) (server : Server) (serverId : Id)
    (requestedPrincipal : Option String) : Evaluation :=
  let p := draft.policy
  let matched := if draft.hasCustomerId then filterPolicies [p] server serverId requestedPrincipal
    else []
  if matched = [] ∨ p.effect = .deny then
    { allowed := false
      requiresApproval := false
      autoApprove := false
      reason := some (if p.effect = .deny then "Denied by draft policy '" ++ p.name ++ "'"
        else "Draft policy does not match this server")
      draft := true }
  else
    { allowed := true
      requiresApproval := p.requireApproval
      autoApprove := p.autoApprove
      principals := p.allowedPrincipals
      maxTtl := p.maxSessionDuration
      reason := some ("Allowed by draft policy '" ++ p.name ++ "'")
      draft := true }

def evaluateSaved (p : AccessPolicy) (server : Server) (serverId : Id)
    (requestedPrincipal : Option String) : Evaluation :=
  if filterPolicies [p] server serverId requestedPrincipal = [] ∨ p.effect = .deny then
    { allowed := false
      requiresApproval := false
      autoApprove := false
      reason := some (if p.effect = .deny then "Denied by policy '" ++ p.name ++ "'"
        else "Policy does not match this server")
      policyId := some p.id
      policyName := some p.name }
  else
    { allowed := true
      requiresApproval := p.requireApproval
      autoApprove := p.autoApprove
      principals := p.allowedPrincipals
      maxTtl := p.maxSessionDuration
      policyId := some p.id
      policyName := some p.name }

/-- Mode C: all the policies of the organization, DENY before ALLOW. -/
def evaluateOrgWide (matching : List AccessPolicy) (isProd canBypass : Bool) : Evaluation :=
  match findDeny matching with
  | some deny => deniedBy deny
  | none =>
    match bestAllow matching with
    | none =>
      { allowed := false
        requiresApproval := false
        autoApprove := false
        reason := some "No matching policy" }
    | some best =>
      -- on prod the policy's own flags decide nothing
      let requiresApproval := if isProd then !canBypass else best.requireApproval
      { allowed := true
        requiresApproval := requiresApproval
        autoApprove := best.autoApprove
        principals := best.allowedPrincipals
        maxTtl := best.maxSessionDuration
        policyId := some best.id
        prodBypass := isProd && !requiresApproval }

/-- The parameters of `evaluate`. -/
structure EvaluateParams where
  orgId : Id
  userId : Id
  serverId : Id
  requestedPrincipal : Option String := none
  policyId : Option Id := none
  draftPolicy : Option DraftPolicy := none

def evaluate (db : Database) (params : EvaluateParams) : Except ApiError Evaluation :=
  let { orgId, userId, serverId, requestedPrincipal, policyId, draftPolicy } := params
  if orgId = "" then .error ⟨400, "orgId is required", none⟩
  else if userId = "" then .error ⟨400, "userId is required", none⟩
  else if serverId = "" then .error ⟨400, "serverId is required", none⟩
  else
    match db.server orgId serverId with
    | none => .error ⟨404, "Server not found", none⟩
    | some server =>
      let isProd := server.environment = .prod
      let subject := loadSubject db userId orgId
      let canBypass := canBypassProdApproval db orgId subject.permissions
      let matching := matchingPolicies db orgId userId server serverId requestedPrincipal
      if "access.bypass_policies" ∈ subject.permissions ∧ truthy policyId = none ∧
          draftPolicy = none ∧ (¬ isProd ∨ canBypass) then
        .ok (evaluateBypass matching isProd requestedPrincipal)
      else
        match draftPolicy with
        | some draft => .ok (evaluateDraft draft server serverId requestedPrincipal)
        | none =>
          match truthy policyId with
          | some id =>
            match db.accessPolicies.find? fun p ↦ p.id = id ∧ p.orgId = orgId with
            | none => .error ⟨404, "Policy not found", none⟩
            | some p => .ok (evaluateSaved p server serverId requestedPrincipal)
          | none => .ok (evaluateOrgWide matching isProd canBypass)

/-! ## Evaluation of many servers -/

/-- One value of the map `evaluateBulk` returns. -/
structure BulkEvaluation where
  allowed : Bool
  requiresApproval : Bool
  isProduction : Bool
  reason : String
  policyId : Option Id

/-- The body of the loop of `evaluateBulk`. -/
def evaluateBulkServer (rawPolicies : List AccessPolicy) (bypassesPolicies prodBypassAllowed : Bool)
    (server : Server) : BulkEvaluation :=
  let isProd : Bool := server.environment = .prod
  let matching := filterPolicies rawPolicies server server.id none
  match findDeny matching with
  | some deny => ⟨false, false, isProd, "Denied by policy " ++ deny.name, some deny.id⟩
  | none =>
    if bypassesPolicies && (!isProd || prodBypassAllowed) then
      ⟨true, false, isProd, if isProd then "policy bypass (prod)" else "policy bypass", none⟩
    else
      match bestAllow matching with
      | none => ⟨false, false, isProd, "No matching policy", none⟩
      | some best =>
        ⟨true, if isProd then !prodBypassAllowed else best.requireApproval, isProd,
          "Allowed by policy " ++ best.name, some best.id⟩

/-- `evaluateBulk`; the map it returns is the list of its entries. -/
def evaluateBulk (db : Database) (orgId userId : Id) (serverIds : List (Option Id)) :
    Except ApiError (List (Id × BulkEvaluation)) :=
  if orgId = "" then .error ⟨400, "orgId is required", none⟩
  else if userId = "" then .error ⟨400, "userId is required", none⟩
  else
    let ids := (serverIds.eraseDups).filterMap truthy
    if ids = [] then .ok []
    else
      let servers := db.servers.filter fun s ↦ s.orgId = orgId ∧ s.id ∈ ids
      if servers = [] then .ok []
      else
        let subject := loadSubject db userId orgId
        let userGroupIds := resolveUserGroupIds db userId orgId
        let prodBypassAllowed := canBypassProdApproval db orgId subject.permissions
        let rawPolicies := loadMatchingPolicies db orgId userId userGroupIds subject.roleKeys
        let bypassesPolicies : Bool := "access.bypass_policies" ∈ subject.permissions
        .ok (servers.map fun s ↦
          (s.id, evaluateBulkServer rawPolicies bypassesPolicies prodBypassAllowed s))

/-! ## The policy behind a request -/

def findApproverPolicy (db : Database) (orgId userId serverId : Id)
    (requestedPrincipal : Option String) : Option AccessPolicy :=
  match db.server orgId serverId with
  | none => none
  | some server => bestAllow (matchingPolicies db orgId userId server serverId requestedPrincipal)

def findBreakGlassPolicy (db : Database) (orgId userId serverId : Id) : Option AccessPolicy :=
  match db.server orgId serverId with
  | none => none
  | some server =>
    let matching := matchingPolicies db orgId userId server serverId none
    if matching.any fun p ↦ p.effect = .deny then none
    else bestAllow (matching.filter fun p ↦ p.isBreakGlass)

end Shellius
