import Shellius.Access.Request
import Shellius.Auth.SecondFactor
import Shellius.Lib.Expiring

/-!
# Break-glass

`startBreakGlass` and `verifyBreakGlass`: emergency access without an approver,
by a policy that says so and a second factor.  The checks are given one by one,
so that they can be put together into an operation or taken one at a time among
the steps of others.
-/

namespace Shellius

open Lib

/-- `BREAK_GLASS_CHALLENGE_TTL_SEC` in milliseconds. -/
def breakGlassChallengeTtlMs : Int := 5 * 60 * 1000

/-- `BREAK_GLASS_MAX_ATTEMPTS` -/
def breakGlassMaxAttempts : Nat := 5

/-- The payload of a challenge, as far as `verifyBreakGlass` uses it. -/
structure Challenge where
  userId : Id
  orgId : Id
  serverId : Id
  reason : String
  ttlSeconds : Int
  method : FactorMethod

abbrev Challenges := Expiring Id Challenge Millis

/-- The wrong codes by challenge id. -/
abbrev Attempts := Expiring Id Nat Millis

/-! ## Checks -/

def assertBreakGlassProdAllowed (db : Database) (orgId : Id) (server : Server) :
    Except ApiError Unit :=
  if server.environment = .prod ∧ ¬ isProdBypassEnabled db orgId then
    .error ⟨403, "Your organization requires approval for all production access, including " ++
      "break-glass", some "BREAK_GLASS_PROD_BYPASS_DISABLED"⟩
  else .ok ()

def isActiveBreakGlass (orgId serverId : Id) (now : Millis) (r : AccessRequest) : Bool :=
  r.orgId = orgId ∧ r.serverId = serverId ∧ r.breakGlass = true ∧ r.status = .approved ∧
    r.expiresAt.any fun t ↦ now < t

/-- `assertNoActiveBreakGlass`; the message goes on with the end of that session. -/
def assertNoActiveBreakGlass (accessRequests : List AccessRequest) (orgId serverId : Id)
    (now : Millis) : Except ApiError Unit :=
  if accessRequests.any (isActiveBreakGlass orgId serverId now) then
    .error ⟨409, "Break-glass access to this server is already active",
      some "BREAK_GLASS_ALREADY_ACTIVE"⟩
  else .ok ()

def breakGlassForbidden : ApiError :=
  ⟨403, "You don't have permission to use break-glass access", none⟩

/-- The duration of a session, at least five minutes and otherwise at most what
is asked for and what the policy allows. -/
def breakGlassTtl (asked maxSessionDuration : Int) : Int := max 300 (min asked maxSessionDuration)

/-! ## Starting -/

/-- The parameters of `startBreakGlass`; a duration that is not a number is
`none`. -/
structure StartBreakGlassParams where
  orgId : Id
  invokerId : Id
  invokerPermissions : List String
  serverId : Id
  reason : String
  durationSeconds : Option Int := none
  method : Option FactorMethod := none
  scope : Scope := .unscoped

/-- `Number(durationSeconds) || policy.maxSessionDuration` -/
def askedBreakGlassDuration (params : StartBreakGlassParams) (policy : AccessPolicy) : Int :=
  (params.durationSeconds.filter fun d ↦ d ≠ 0).getD policy.maxSessionDuration

/-- The factor of a challenge: the one asked for, or the first available. -/
def chooseMethod (invoker : User) (method : Option FactorMethod) : Except ApiError FactorMethod :=
  let enrolled := availableMethods invoker
  let available := if enrolled = [] then [FactorMethod.email] else enrolled
  match method with
  | none => .ok (available.headD .email)
  | some chosen =>
    if chosen ∈ available then .ok chosen
    else .error ⟨400, "That verification method isn't available for your account.",
      some "BREAK_GLASS_METHOD_UNAVAILABLE"⟩

/-- The challenge `startBreakGlass` issues, once all its checks have passed, and
the user it is for. -/
def checkStartBreakGlass (db : Database) (accessRequests : List AccessRequest) (now : Millis)
    (params : StartBreakGlassParams) : Except ApiError (Challenge × User) :=
  if "access.break_glass" ∉ params.invokerPermissions then .error breakGlassForbidden
  else if utf16Length (trim params.reason) < 20 then
    .error ⟨400, "reason must be at least 20 characters", none⟩
  else
    match db.server params.orgId params.serverId with
    | none => .error ⟨404, "Server not found", none⟩
    | some server =>
      if ¬ inScope params.scope server then .error ⟨404, "Server not found", none⟩
      else
        match assertBreakGlassProdAllowed db params.orgId server with
        | .error e => .error e
        | .ok () =>
          match findBreakGlassPolicy db params.orgId params.invokerId params.serverId with
          | none =>
            .error ⟨403, "No break-glass policy authorizes emergency access to this server " ++
              "for you.", some "BREAK_GLASS_NOT_AUTHORIZED"⟩
          | some policy =>
            match assertNoActiveBreakGlass accessRequests params.orgId params.serverId now with
            | .error e => .error e
            | .ok () =>
              match db.user params.orgId params.invokerId with
              | none => .error ⟨404, "Invoker not found", none⟩
              | some invoker =>
                match chooseMethod invoker params.method with
                | .error e => .error e
                | .ok method =>
                  let ttlSeconds := breakGlassTtl
                    (askedBreakGlassDuration params policy) policy.maxSessionDuration
                  .ok (⟨params.invokerId, params.orgId, params.serverId,
                    trim params.reason, ttlSeconds, method⟩, invoker)

/-! ## Verifying -/

/-- The parameters of `verifyBreakGlass`, with the code trimmed. -/
structure VerifyBreakGlassParams where
  orgId : Id
  invokerId : Id
  invokerPermissions : List String
  challengeId : Id
  code : String

def expiredError : ApiError :=
  ⟨401, "This break-glass verification has expired — start again.",
    some "BREAK_GLASS_CHALLENGE_EXPIRED"⟩

def tooManyAttemptsError : ApiError :=
  ⟨429, "Too many attempts — start again.", some "BREAK_GLASS_TOO_MANY_ATTEMPTS"⟩

def notAuthorizedError : ApiError :=
  ⟨403, "Break-glass authorization for this server is no longer valid — start again.",
    some "BREAK_GLASS_NOT_AUTHORIZED"⟩

def invalidCodeError : ApiError :=
  ⟨401, "Invalid verification code", some "BREAK_GLASS_INVALID_CODE"⟩

/-- The checks of `verifyBreakGlass` on its parameters. -/
def checkVerifyBreakGlass (params : VerifyBreakGlassParams) : Except ApiError Unit :=
  if "access.break_glass" ∉ params.invokerPermissions then .error breakGlassForbidden
  else if params.challengeId = "" then .error expiredError
  else .ok ()

/-- The challenge was started by the caller. -/
def isFor (params : VerifyBreakGlassParams) (payload : Challenge) : Bool :=
  payload.userId = params.invokerId ∧ payload.orgId = params.orgId

/-- `prisma.user.findFirst({ where: { id, orgId, status: 'active' } })` -/
def activeUser (db : Database) (orgId userId : Id) : Option User :=
  db.users.find? fun u ↦ u.id = userId ∧ u.orgId = orgId ∧ u.status = .active

def breakGlassRow (id : Id) (now : Millis) (params : VerifyBreakGlassParams) (payload : Challenge)
    (server : Server) (policy : AccessPolicy) : AccessRequest :=
  let ttl := breakGlassTtl payload.ttlSeconds policy.maxSessionDuration
  { id
    orgId := params.orgId
    requesterId := params.invokerId
    reviewerId := some params.invokerId
    serverId := payload.serverId
    status := .approved
    reason := payload.reason
    requestedPrincipal := (truthy (some server.sshUser)).getD "root"
    requestedDuration := ttl
    protocol := .ssh
    approvedDuration := some ttl
    approvedAt := some now
    expiresAt := some (now + ttl * 1000)
    breakGlass := true
    createdAt := now }

/-- The checks of `verifyBreakGlass` on the organization, in order.  Any of them
burns the challenge when it fails. -/
def recheckBreakGlass (db : Database) (accessRequests : List AccessRequest) (now : Millis)
    (params : VerifyBreakGlassParams) (payload : Challenge) :
    Except ApiError (User × Server × AccessPolicy) :=
  match activeUser db params.orgId params.invokerId with
  | none => .error expiredError
  | some invoker =>
    match db.server params.orgId payload.serverId with
    | none => .error ⟨404, "Server not found", none⟩
    | some server =>
      match assertBreakGlassProdAllowed db params.orgId server with
      | .error e => .error e
      | .ok () =>
        match findBreakGlassPolicy db params.orgId params.invokerId payload.serverId with
        | none => .error notAuthorizedError
        | some policy =>
          match assertNoActiveBreakGlass accessRequests params.orgId payload.serverId
              now with
          | .error e => .error e
          | .ok () => .ok (invoker, server, policy)

/-! ### What the checks establish -/

section

variable {db : Database} {accessRequests : List AccessRequest} {now : Millis}
  {params : VerifyBreakGlassParams} {payload : Challenge} {invoker : User} {server : Server}
  {policy : AccessPolicy}

theorem assertNoActiveBreakGlass_ok {orgId serverId : Id} :
    assertNoActiveBreakGlass accessRequests orgId serverId now = .ok () ↔
      ∀ r ∈ accessRequests, isActiveBreakGlass orgId serverId now r = false := by
  unfold assertNoActiveBreakGlass
  split
  · rename_i h
    simpa using h
  · rename_i h
    simpa using h

theorem recheckBreakGlass_ok
    (h : recheckBreakGlass db accessRequests now params payload = .ok (invoker, server, policy)) :
    activeUser db params.orgId params.invokerId = some invoker ∧
      db.server params.orgId payload.serverId = some server ∧
      assertBreakGlassProdAllowed db params.orgId server = .ok () ∧
      findBreakGlassPolicy db params.orgId params.invokerId payload.serverId = some policy ∧
      assertNoActiveBreakGlass accessRequests params.orgId payload.serverId now = .ok () := by
  unfold recheckBreakGlass at h
  split at h
  · cases h
  rename_i u hu
  split at h
  · cases h
  rename_i s hs
  split at h
  · cases h
  rename_i hprod
  split at h
  · cases h
  rename_i p hp
  split at h
  · cases h
  rename_i hact
  cases h
  exact ⟨hu, hs, hprod, hp, hact⟩

end

end Shellius
