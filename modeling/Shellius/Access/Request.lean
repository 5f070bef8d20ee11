import Shellius.Jit.Account
import Shellius.Lib.Table
import Shellius.Scope

/-!
# Access requests

`accessRequestService`, up to break-glass: submitting a request, deciding it and
taking it back.  Each operation is given as what it decides, a function of the
organization data and of the row it read; the store it acts on comes later.

Left out are the audit log, the notifications and e-mails, and ending live
sessions, none of which an operation reads back.
-/

namespace Shellius

open Lib

/-! ## Rows -/

/-- `AccessRequest`, with the user ids of its `AccessRequestApprover` rows. -/
structure AccessRequest where
  id : Id
  orgId : Id
  requesterId : Id
  reviewerId : Option Id
  serverId : Id
  status : AccessRequestStatus
  reason : String
  requestedPrincipal : String
  requestedDuration : Int
  protocol : Protocol
  approvedDuration : Option Int := none
  approvedAt : Option Millis := none
  deniedAt : Option Millis := none
  deniedReason : Option String := none
  expiresAt : Option Millis := none
  revokedAt : Option Millis := none
  revokedReason : Option String := none
  certificateId : Option Id := none
  breakGlass : Bool := false
  createdAt : Millis
  approvers : List Id := []

def isServerOnboarded (server : Server) : Bool :=
  server.provisionStatus = "provisioned" ∨ server.protocol = .rdp ∨
    server.authMode = .credential ∨ truthy server.agentId ≠ none ∨ server.agentLastSeen ≠ none

/-- The `id`, `name` and `email` of an approver; only the id decides anything. -/
abbrev Approver := Id

/-- One alternative of the approver filters of a policy. -/
def routesTo (db : Database) (policy : AccessPolicy) (u : User) : Bool :=
  u.id ∈ policy.approverUserIds ||
    (u.role.key ∈ policy.approverRoles ||
      (db.assignedRole u).any fun r ↦ r.key ∈ policy.approverRoles) ||
    (truthy policy.approverGroupId).any fun g ↦
      db.groupMemberships.any fun m ↦ m.groupId = g ∧ m.userId = u.id

def routedUsers (db : Database) (orgId : Id) (policy : AccessPolicy) : List User :=
  db.users.filter fun u ↦ u.orgId = orgId ∧ u.status = .active ∧ u.deletedAt = none ∧
    u.kind = .human ∧ routesTo db policy u

/-- `resolveApprovers`: whom the policy routes to, other than the requester; the
requester's manager if that is nobody. -/
def resolveApprovers (db : Database) (orgId requesterId : Id) (policy : Option AccessPolicy)
    (manager : Option User) : List Approver :=
  let byId := (policy.toList.flatMap fun p ↦
    ((routedUsers db orgId p).map User.id).filter fun u ↦ u ≠ requesterId).eraseDups
  if byId = [] then
    (manager.toList.filter fun m ↦ m.id ≠ requesterId ∧
      db.users.any fun u ↦ u.id = m.id ∧ u.orgId = orgId ∧ u.status = .active ∧
        u.deletedAt = none).map User.id
  else byId

theorem ne_of_mem_resolveApprovers {db : Database} {orgId requesterId u : Id}
    {policy : Option AccessPolicy} {manager : Option User}
    (h : u ∈ resolveApprovers db orgId requesterId policy manager) : u ≠ requesterId := by
  unfold resolveApprovers at h
  simp only at h
  split at h
  · obtain ⟨m, hm, rfl⟩ := List.mem_map.mp h
    exact (of_decide_eq_true (List.mem_filter.mp hm).2).1
  · rw [List.mem_eraseDups] at h
    obtain ⟨p, -, hu⟩ := List.mem_flatMap.mp h
    exact of_decide_eq_true (List.mem_filter.mp hu).2

/-! ## Submitting -/

/-- The parameters of `submit`. -/
structure SubmitParams where
  orgId : Id
  requesterId : Id
  serverId : Id
  reason : String
  requestedDuration : Int
  requestedPrincipal : Option String := none
  protocol : Protocol := .ssh
  callerPermissions : List String := []
  scope : Scope := .unscoped

/-- The account a request is for.  RDP and credential-mode servers have one of
their own; elsewhere it is the caller's choice among the JIT account and the
shared one, or any account for a caller who may choose. -/
def resolvePrincipal (db : Database) (params : SubmitParams) (server : Server)
    (requester : User) : Except ApiError String :=
  match params.protocol with
  | .rdp =>
    let stored := if server.authMode = .credential then
      (db.credential server).map Credential.username else none
    .ok (([stored, server.rdpUsername, params.requestedPrincipal].filterMap truthy).headD
      "Administrator")
  | .ssh =>
    if server.authMode = .credential then
      match db.credential server with
      | none => .error ⟨400, "This server has no identity configured", none⟩
      | some credential => .ok credential.username
    else
      let jitPrincipal := (findJitPolicyForUserServer db params.orgId params.requesterId
        params.serverId).map fun _ ↦ jitPrincipalFor requester
      let legacyPrincipal := (truthy (some server.sshUser)).getD "root"
      match truthy params.requestedPrincipal with
      | none => .ok (jitPrincipal.getD legacyPrincipal)
      | some principal =>
        let allowed := (legacyPrincipal :: jitPrincipal.toList).eraseDups
        if "access.choose_principal" ∈ params.callerPermissions ∨ principal ∈ allowed then
          .ok principal
        else
          .error ⟨403, "Principal \"" ++ principal ++
            "\" is not allowed for this user. Allowed: " ++ ", ".intercalate allowed ++ ".",
            none⟩

/-- The principal `submit` evaluates policies on: none for RDP, whose account is
not in any SSH allow-list. -/
def evaluatedPrincipal (protocol : Protocol) (principal : String) : Option String :=
  match protocol with
  | .rdp => none
  | .ssh => some principal

/-- What `submit` has established before it evaluates any policy. -/
structure Submission where
  server : Server
  requester : User
  principal : String

/-- The checks at the head of `submit`. -/
def checkSubmit (db : Database) (params : SubmitParams) : Except ApiError Submission :=
  if params.orgId = "" then .error ⟨400, "orgId is required", none⟩
  else if params.requesterId = "" then .error ⟨400, "requesterId is required", none⟩
  else if params.serverId = "" then .error ⟨400, "serverId is required", none⟩
  else if params.reason = "" then .error ⟨400, "reason is required", none⟩
  else if params.requestedDuration ≤ 0 then
    .error ⟨400, "requestedDuration must be a positive integer (seconds)", none⟩
  else
    match db.server params.orgId params.serverId with
    | none => .error ⟨404, "Server not found", none⟩
    | some server =>
      if ¬ inScope params.scope server then .error ⟨404, "Server not found", none⟩
      else if ¬ isServerOnboarded server then
        .error ⟨400, "This server has not been onboarded yet, so access cannot be requested.",
          none⟩
      else
        match db.user params.orgId params.requesterId with
        | none => .error ⟨404, "Requester not found", none⟩
        | some requester =>
          match resolvePrincipal db params server requester with
          | .error e => .error e
          | .ok principal => .ok ⟨server, requester, principal⟩

/-- What `submit` evaluates. -/
def submitEvaluation (db : Database) (params : SubmitParams) (s : Submission) :
    Except ApiError Evaluation :=
  evaluate db
    { orgId := params.orgId
      userId := params.requesterId
      serverId := params.serverId
      requestedPrincipal := evaluatedPrincipal params.protocol s.principal }

/-- The policy `submit` routes an approval by. -/
def submitApproverPolicy (db : Database) (params : SubmitParams) (s : Submission) :
    Option AccessPolicy :=
  findApproverPolicy db params.orgId params.requesterId params.serverId (some s.principal)

/-- The approvers `submit` writes down. -/
def submitApprovers (db : Database) (params : SubmitParams) (s : Submission) : List Approver :=
  resolveApprovers db params.orgId params.requesterId (submitApproverPolicy db params s)
    (db.manager s.requester)

def pendingRow (id : Id) (now : Millis) (params : SubmitParams) (principal : String)
    (reviewerId : Id) (approvers : List Approver) : AccessRequest where
  id
  orgId := params.orgId
  requesterId := params.requesterId
  reviewerId := some reviewerId
  serverId := params.serverId
  status := .pending
  reason := params.reason
  requestedPrincipal := principal
  requestedDuration := params.requestedDuration
  protocol := params.protocol
  createdAt := now
  approvers

def approvedRow (id : Id) (now : Millis) (params : SubmitParams) (principal : String)
    (effectiveDuration : Int) : AccessRequest where
  id
  orgId := params.orgId
  requesterId := params.requesterId
  reviewerId := none
  serverId := params.serverId
  status := .approved
  reason := params.reason
  requestedPrincipal := principal
  requestedDuration := params.requestedDuration
  protocol := params.protocol
  approvedDuration := some effectiveDuration
  approvedAt := some now
  expiresAt := some (now + effectiveDuration * 1000)
  createdAt := now

/-- `Math.min(requestedDuration, maxTtl)`, where there is a limit. -/
def clampToPolicy (duration maxTtl : Int) : Int := if maxTtl > 0 then min duration maxTtl else duration

/-- The row `submit` creates, with the key the database gives it. -/
def submit (db : Database) (now : Millis) (id : Id) (params : SubmitParams) :
    Except ApiError AccessRequest :=
  match checkSubmit db params with
  | .error e => .error e
  | .ok s =>
    match submitEvaluation db params s with
    | .error e => .error e
    | .ok policyResult =>
      if policyResult.requiresApproval then
        match submitApprovers db params s with
        | [] => .error ⟨400, "No approver is configured for this server. Assign the requester " ++
            "a manager, or set an approver group/role on the matching policy.", none⟩
        | primary :: others =>
          .ok (pendingRow id now params s.principal primary (primary :: others))
      else if ¬ policyResult.allowed then
        .error ⟨403, "Access denied by policy: " ++ policyResult.reason.getD "undefined", none⟩
      else
        .ok (approvedRow id now params s.principal
          (clampToPolicy params.requestedDuration policyResult.maxTtl))

/-! ### What a submission went through -/

section

variable {db : Database} {now : Millis} {id : Id} {params : SubmitParams} {s : Submission}

/-- What `checkSubmit` has checked. -/
structure Submission.Checked (db : Database) (params : SubmitParams) (s : Submission) : Prop where
  orgId : params.orgId ≠ ""
  requesterId : params.requesterId ≠ ""
  serverId : params.serverId ≠ ""
  requestedDuration : 0 < params.requestedDuration
  server : db.server params.orgId params.serverId = some s.server
  requester : db.user params.orgId params.requesterId = some s.requester
  principal : resolvePrincipal db params s.server s.requester = .ok s.principal

theorem checkSubmit_ok (h : checkSubmit db params = .ok s) : s.Checked db params := by
  unfold checkSubmit at h
  split at h
  · cases h
  split at h
  · cases h
  split at h
  · cases h
  split at h
  · cases h
  split at h
  · cases h
  rename_i ho hr hs _ hd
  cases hserver : db.server params.orgId params.serverId with
  | none => simp [hserver] at h
  | some server =>
    simp only [hserver] at h
    split at h
    · cases h
    split at h
    · cases h
    cases huser : db.user params.orgId params.requesterId with
    | none => simp [huser] at h
    | some requester =>
      simp only [huser] at h
      cases hp : resolvePrincipal db params server requester with
      | error e => simp [hp] at h
      | ok principal =>
        simp only [hp, Except.ok.injEq] at h
        subst h
        exact ⟨ho, hr, hs, not_le.mp hd, hserver, huser, hp⟩

theorem submit_cases {r : AccessRequest} (h : submit db now id params = .ok r) :
    ∃ s e, checkSubmit db params = .ok s ∧ submitEvaluation db params s = .ok e ∧
      ((e.requiresApproval = true ∧ ∃ primary others,
          submitApprovers db params s = primary :: others ∧
          r = pendingRow id now params s.principal primary (primary :: others)) ∨
        (e.requiresApproval = false ∧ e.allowed = true ∧
          r = approvedRow id now params s.principal
            (clampToPolicy params.requestedDuration e.maxTtl))) := by
  unfold submit at h
  cases hs : checkSubmit db params with
  | error e => simp [hs] at h
  | ok s =>
    simp only [hs] at h
    cases he : submitEvaluation db params s with
    | error err => simp [he] at h
    | ok e =>
      simp only [he] at h
      refine ⟨s, e, rfl, he, ?_⟩
      by_cases hreq : e.requiresApproval = true
      · rw [if_pos hreq] at h
        cases ha : submitApprovers db params s with
        | nil => simp [ha] at h
        | cons primary others =>
          simp only [ha, Except.ok.injEq] at h
          exact .inl ⟨hreq, primary, others, rfl, h.symm⟩
      · rw [if_neg hreq] at h
        by_cases hal : e.allowed = true
        · rw [if_neg (not_not.mpr hal), Except.ok.injEq] at h
          exact .inr ⟨by simpa using hreq, hal, h.symm⟩
        · rw [if_pos hal] at h
          cases h

theorem submit_id {r : AccessRequest} (h : submit db now id params = .ok r) : r.id = id := by
  obtain ⟨s, e, -, -, ⟨-, primary, others, -, rfl⟩ | ⟨-, -, rfl⟩⟩ := submit_cases h <;> rfl

end

/-! ## Reviewing -/

inductive Decision where
  | approve | deny
deriving DecidableEq

/-- The parameters of `review`, with the decision parsed. -/
structure ReviewParams where
  requestId : Id
  reviewerId : Id
  decision : Option Decision
  approvedDuration : Option Int := none
  deniedReason : Option String := none

/-- The status as messages print it. -/
def AccessRequestStatus.text : AccessRequestStatus → String
  | .pending => "PENDING"
  | .approved => "APPROVED"
  | .denied => "DENIED"
  | .expired => "EXPIRED"
  | .revoked => "REVOKED"

/-- The checks `review` makes on its parameters. -/
def checkReviewParams (params : ReviewParams) : Except ApiError Decision :=
  if params.requestId = "" then .error ⟨400, "requestId is required", none⟩
  else if params.reviewerId = "" then .error ⟨400, "reviewerId is required", none⟩
  else
    match params.decision with
    | none => .error ⟨400, "decision must be 'approve' or 'deny'", none⟩
    | some decision => .ok decision

/-- The checks `review` makes on the row it found. -/
def checkReview (params : ReviewParams) (r : AccessRequest) : Except ApiError Unit :=
  if ¬ (r.reviewerId = some params.reviewerId ∨ params.reviewerId ∈ r.approvers) then
    .error ⟨403, "You are not an eligible approver for this request", none⟩
  else if r.status ≠ .pending then
    .error ⟨409, "Request is not pending (current status: " ++ r.status.text ++ ")", none⟩
  else .ok ()

/-- The `approverNow` query: the reviewer is an active user of the request's
organization at the time. -/
def canStillApprove (db : Database) (orgId reviewerId : Id) : Bool :=
  db.users.any fun u ↦ u.id = reviewerId ∧ u.orgId = orgId ∧ u.status = .active ∧
    u.deletedAt = none

/-- The policy `review` clamps the duration by. -/
def reviewPolicy (db : Database) (r : AccessRequest) : Option AccessPolicy :=
  findApproverPolicy db r.orgId r.requesterId r.serverId (truthy (some r.requestedPrincipal))

def askedDuration (params : ReviewParams) (r : AccessRequest) : Int :=
  match params.approvedDuration with
  | some d => if d > 0 then d else r.requestedDuration
  | none => r.requestedDuration

/-- The duration `review` grants, no longer than the policy it found allows. -/
def reviewDuration (policy : Option AccessPolicy) (asked : Int) : Int :=
  match policy with
  | some p =>
    if p.maxSessionDuration > 0 ∧ asked > p.maxSessionDuration then p.maxSessionDuration
    else asked
  | none => asked

/-- The columns `review` writes. -/
def decideRow (params : ReviewParams) (decision : Decision) (now : Millis) (duration : Int)
    (r : AccessRequest) : AccessRequest :=
  match decision with
  | .approve =>
    { r with
      status := .approved
      reviewerId := some params.reviewerId
      approvedDuration := some duration
      approvedAt := some now
      expiresAt := some (now + duration * 1000) }
  | .deny =>
    { r with
      status := .denied
      reviewerId := some params.reviewerId
      deniedAt := some now
      deniedReason := params.deniedReason }

/-- `updateMany({ where: { id, status: 'PENDING' } })` on one row. -/
def claim (f : AccessRequest → AccessRequest) (r : AccessRequest) : AccessRequest :=
  if r.status = .pending then f r else r

/-- `review` on the row it found, with nothing else going on. -/
def reviewRow (db : Database) (now : Millis) (params : ReviewParams) (decision : Decision)
    (r : AccessRequest) : Except ApiError AccessRequest :=
  match checkReview params r with
  | .error e => .error e
  | .ok () =>
    if ¬ canStillApprove db r.orgId params.reviewerId then
      .error ⟨403, "Your account can no longer approve requests", none⟩
    else
      let duration := reviewDuration (reviewPolicy db r) (askedDuration params r)
      .ok (claim (decideRow params decision now duration) r)

section

variable {db : Database} {now : Millis} {params : ReviewParams} {decision : Decision}
  {r r' : AccessRequest}

theorem reviewRow_ok (h : reviewRow db now params decision r = .ok r') :
    checkReview params r = .ok () ∧ canStillApprove db r.orgId params.reviewerId = true ∧
      r.status = .pending ∧ r' = decideRow params decision now
        (reviewDuration (reviewPolicy db r) (askedDuration params r)) r := by
  unfold reviewRow at h
  split at h
  · cases h
  rename_i hcheck
  split at h
  · cases h
  rename_i hcan
  obtain rfl := Except.ok.inj h
  have hpending : r.status = .pending := by
    unfold checkReview at hcheck
    split at hcheck
    · cases hcheck
    split at hcheck
    · cases hcheck
    rename_i hst
    exact not_not.mp hst
  exact ⟨hcheck, not_not.mp hcan, hpending, by simp [claim, hpending]⟩

theorem decideRow_ne_pending {duration : Int} :
    (decideRow params decision now duration r).status ≠ .pending := by
  cases decision <;> simp [decideRow]

theorem reviewRow_id (h : reviewRow db now params decision r = .ok r') : r'.id = r.id := by
  obtain ⟨-, -, -, rfl⟩ := reviewRow_ok h
  cases decision <;> rfl

end

/-! ## Taking back -/

/-- The parameters of `revoke`. -/
structure RevokeParams where
  requestId : Id
  orgId : Id
  callerId : Id
  callerPermissions : List String := []
  reason : Option String := none

/-- The checks `revoke` makes on its parameters. -/
def checkRevokeParams (params : RevokeParams) : Except ApiError Unit :=
  if params.requestId = "" then .error ⟨400, "requestId is required", none⟩
  else if params.orgId = "" then .error ⟨400, "orgId is required", none⟩
  else if params.callerId = "" then .error ⟨400, "callerId is required", none⟩
  else .ok ()

/-- The checks `revoke` makes on the row it found. -/
def checkRevoke (params : RevokeParams) (r : AccessRequest) : Except ApiError Unit :=
  if ¬ ("access_requests.revoke_any" ∈ params.callerPermissions ∨
      r.reviewerId = some params.callerId ∨ params.callerId ∈ r.approvers) then
    .error ⟨403, "You do not have permission to revoke this access request", none⟩
  else if r.status = .revoked then .error ⟨409, "Access request is already revoked", none⟩
  else .ok ()

/-- The columns `revoke` writes. -/
def revokeRow (params : RevokeParams) (now : Millis) (r : AccessRequest) : AccessRequest :=
  { r with status := .revoked, revokedAt := some now, revokedReason := params.reason }

/-- The column `markExpired` and `markPendingExpired` write. -/
def expireRow (r : AccessRequest) : AccessRequest := { r with status := .expired }

/-- The rows `markExpired` selects. -/
def hasExpired (now : Millis) (r : AccessRequest) : Bool :=
  r.status = .approved ∧ r.expiresAt.any fun t ↦ t < now

/-- `cutoff` of `markPendingExpired`: a day before. -/
def pendingCutoff (now : Millis) : Millis := now - 24 * 60 * 60 * 1000

/-- The rows `markPendingExpired` selects: undecided since before the cutoff. -/
def isStale (cutoff : Millis) (r : AccessRequest) : Bool :=
  r.status = .pending ∧ r.createdAt < cutoff

end Shellius
