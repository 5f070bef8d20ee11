import Shellius.Access.World

/-!
# Buttons in Slack

`POST /api/chat/slack/interactions`: somebody has pressed a button of a message in Slack, and the
press is taken to `review`.  Slack sends a press again until it is answered, so a press takes a
claim in Redis first; the claim is for the button and not for the person, and it is taken before
anything is known about what the person may do.

A press is given by what Slack says of it; a delivery of it is one request to the route.
-/

namespace Shellius.Chat

open Lib

/-! ## What is stored -/

inductive ChatPlatform where
  | slack | google_chat | teams | webhook
deriving DecidableEq

inductive ChatMode where
  | webhook | app
deriving DecidableEq

/-- What the route reads of a configuration; one that cannot be decrypted is empty. -/
structure DestinationConfig where
  workspaceId : Option String := none
  signingSecret : Option String := none
  botToken : Option String := none

structure ChatDestination where
  id : Id
  orgId : Id
  platform : ChatPlatform := .slack
  mode : ChatMode := .app
  config : DestinationConfig := {}

structure ChatIdentity where
  id : Id
  orgId : Id
  userId : Id
  platform : ChatPlatform := .slack
  workspaceId : String
  externalUserId : String
  linkedVia : String := "confirmed"

structure PendingLink where
  orgId : Id
  workspaceId : String
  externalUserId : String
  displayName : Option String

/-- A call of `review`, for the record. -/
structure Call where
  press : Nat
  key : String
  instant : Millis
  /-- Whether Redis has recorded the claim. -/
  recorded : Bool
  params : ReviewParams

/-- A claim that was taken for nothing, for the record. -/
structure Waste where
  key : String
  instant : Millis

structure State where
  world : World
  destinations : List ChatDestination := []
  identities : List ChatIdentity := []
  /-- `chatApprovalsAllowProd` -/
  allowProd : Id → Bool := fun _ ↦ false
  /-- What a server is called. -/
  host : Id → String := id
  claims : Expiring String Unit Millis := fun _ ↦ none
  links : Expiring String PendingLink Millis := fun _ ↦ none
  calls : List Call := []
  wasted : List Waste := []

/-! ## Requests -/

structure Action where
  actionId : String
  value : String

/-- `payload`, as far as it is read. -/
structure Payload where
  team : Option String := none
  enterprise : Option String := none
  user : Option String := none
  username : Option String := none
  action : Option Action := none
  messageTs : Option String := none

/-- A request to the route. -/
structure Delivery where
  press : Nat
  signature : Option String := none
  timestamp : Option String := none
  rawBody : Option String := none
  /-- Whether Redis answers. -/
  redisUp : Bool := true
  /-- The token that is drawn when a link is offered. -/
  token : String := ""

structure Response where
  status : Nat := 200
  replaceOriginal : Bool := false
  text : String

def ephemeral (text : String) : Response := { text }

/-- `createHmac` with SHA-256, in hexadecimal digits, and `Number`, where it is a whole number. -/
structure Signing where
  hmac : String → String → String
  number : String → Option Int

/-- `CLAIM_TTL_SEC`, in milliseconds -/
def claimTtlMs : Millis := 300 * 1000

/-- `PENDING_TTL_SEC`, in milliseconds -/
def linkTtlMs : Millis := 15 * 60 * 1000

/-- `MAX_SKEW_SECONDS` -/
def maxSkewSeconds : Nat := 60 * 5

section

variable (signing : Signing)

/-- `verifySlackSignature`; what is wrong, if something is. -/
def verifySlackSignature (signingSecret : Option String) (d : Delivery) (now : Millis) :
    Except String Unit :=
  match truthy signingSecret with
  | none => .error "no signing secret configured"
  | some secret =>
    match truthy d.signature, truthy d.timestamp with
    | some signature, some timestamp =>
      match d.rawBody with
      | none => .error "raw body unavailable"
      | some body =>
        match signing.number timestamp with
        | none => .error "bad timestamp"
        | some ts =>
          if maxSkewSeconds < (now / 1000 - ts).natAbs then
            .error "timestamp outside the replay window"
          else if "v0=" ++ signing.hmac secret ("v0:" ++ ts.repr ++ ":" ++ body) =
              signature then .ok ()
          else .error "signature mismatch"
    | _, _ => .error "missing signature headers"

end

section

variable (s : State)

def destinationForTeam (teamId : String) : Option ChatDestination :=
  let rows := s.destinations.filter fun row ↦ row.platform = .slack ∧ row.mode = .app
  match rows.find? fun row ↦ truthy row.config.workspaceId = some teamId with
  | some row => some row
  | none =>
    match rows.filter fun row ↦ (truthy row.config.botToken).isSome with
    | [row] => some row
    | _ => none

/-- `resolveUser`, on Slack -/
def resolveUser (orgId : Id) (workspaceId externalUserId : String) : Option User :=
  match s.identities.find? fun i ↦ i.orgId = orgId ∧ i.platform = .slack ∧
      i.workspaceId = workspaceId ∧ i.externalUserId = externalUserId with
  | none => none
  | some identity =>
    if identity.linkedVia ≠ "confirmed" then none
    else
      (lookup User.id identity.userId s.world.db.users).filter fun user ↦
        user.deletedAt = none ∧ user.status = .active ∧ user.kind = .human ∧ user.orgId = orgId

end

/-- The verb and the request in the value of a button. -/
def parseValue (value : String) : Option (Decision × Id) :=
  match value.toList.splitOn ':' with
  | [] => none
  | verb :: rest =>
    let requestId := String.ofList (rest.headD [])
    if requestId = "" then none
    else if verb = "approve".toList then some (.approve, requestId)
    else if verb = "deny".toList then some (.deny, requestId)
    else none

/-- What a press names: the workspace, the person and the button. -/
def Payload.names (p : Payload) : Option (String × String × Action) :=
  match truthy (p.team <|> p.enterprise), truthy p.user, p.action with
  | some teamId, some slackUserId, some action => some (teamId, slackUserId, action)
  | _, _, _ => none

def claimKey (teamId : String) (messageTs : Option String) (actionId : String) (requestId : Id) :
    String :=
  teamId ++ ":" ++ messageTs.getD "none" ++ ":" ++ actionId ++ ":" ++ requestId

/-! ## The route -/

/-- What is known of a press when its claim is taken. -/
structure Arrival where
  orgId : Id
  teamId : String
  slackUserId : String
  user : User
  verb : Decision
  requestId : Id
  key : String

/-- A press that does not get so far. -/
structure Refusal where
  response : Response
  link : Option PendingLink := none

section

variable (signing : Signing) (presses : Nat → Option Payload) (frontendUrl : String) (s : State)

/-- The route up to the claim. -/
def arrive (d : Delivery) : Except Refusal Arrival :=
  match presses d.press with
  | none => .error ⟨{ status := 400, text := "bad payload" }, none⟩
  | some payload =>
    match payload.names with
    | none => .error ⟨{ status := 400, text := "incomplete payload" }, none⟩
    | some (teamId, slackUserId, action) =>
      match destinationForTeam s teamId with
      | none => .error ⟨{ status := 401, text := "unknown workspace" }, none⟩
      | some target =>
        match verifySlackSignature signing target.config.signingSecret d s.world.now with
        | .error _ =>
          .error ⟨{ status := 401, text := "signature verification failed" }, none⟩
        | .ok () =>
          match resolveUser s target.orgId teamId slackUserId with
          | none =>
            .error ⟨ephemeral ("This Slack account isn't linked to Shellius yet, so " ++
                "nothing was changed. Link it here and press the button again: " ++
                frontendUrl ++ "/chat/link?token=" ++ d.token),
              some ⟨target.orgId, teamId, slackUserId, payload.username⟩⟩
          | some user =>
            match parseValue action.value with
            | none => .error ⟨ephemeral "That button is no longer valid.", none⟩
            | some (verb, requestId) =>
              .ok ⟨target.orgId, teamId, slackUserId, user, verb, requestId,
                claimKey teamId payload.messageTs action.actionId requestId⟩

/-- Whether a claim can be taken; without Redis it can. -/
def claimFree (d : Delivery) (key : String) : Bool :=
  !d.redisUp || (Expiring.get s.world.now s.claims key).isNone

def takeClaim (d : Delivery) (key : String) : Expiring String Unit Millis :=
  if d.redisUp then Expiring.set s.claims key () (some (s.world.now + claimTtlMs)) else s.claims

def onProduction (r : AccessRequest) : Bool :=
  (lookup Server.id r.serverId s.world.db.servers).any (·.environment = .prod)

/-- What `review` is called with. -/
def Arrival.params (a : Arrival) : ReviewParams where
  requestId := a.requestId
  reviewerId := a.user.id
  decision := some a.verb
  deniedReason := if a.verb = .deny then some "Denied from Slack" else none

def findRequest (a : Arrival) : Option AccessRequest :=
  s.world.accessRequests.find? fun r ↦ r.id = a.requestId ∧ r.orgId = a.orgId

/-- What comes between the claim and `review`. -/
def gate (a : Arrival) : Except Response AccessRequest :=
  match findRequest s a with
  | none => .error (ephemeral "That request no longer exists.")
  | some r =>
    if onProduction s r ∧ a.verb = .approve ∧ ¬ s.allowProd a.orgId then
      .error (ephemeral ("Production access is not approved from chat in this organization. " ++
        "Open it in Shellius: " ++ frontendUrl ++ "/access-requests?request=" ++ a.requestId))
    else .ok r

/-- How a delivery ends. -/
inductive Outcome where
  | refused (refusal : Refusal)
  | handled
  | stopped (a : Arrival) (response : Response)
  | reviewed (a : Arrival) (r : AccessRequest)

/-- The way of a delivery through the route. -/
def outcome (d : Delivery) : Outcome :=
  match arrive signing presses frontendUrl s d with
  | .error refusal => .refused refusal
  | .ok a =>
    if ¬ claimFree s d a.key then .handled
    else
      match gate frontendUrl s a with
      | .error response => .stopped a response
      | .ok r => .reviewed a r

/-- What `review` is called with, if it is. -/
def called (d : Delivery) : Option ReviewParams :=
  match outcome signing presses frontendUrl s d with
  | .reviewed a _ => some a.params
  | _ => none

/-- The record of a claim that was taken for nothing. -/
def waste (d : Delivery) (key : String) : List Waste :=
  if d.redisUp then s.wasted ++ [⟨key, s.world.now⟩] else s.wasted

/-- The answer to a press that `review` has refused. -/
def notDone (e : ApiError) : Response :=
  ephemeral (if e.statusCode = 409 then "That request was already decided."
    else "Not done: " ++ e.message)

/-- The answer to a press that has decided a request. -/
def done (a : Arrival) (r : AccessRequest) : Response where
  replaceOriginal := true
  text := (if a.verb = .approve then "✅ Approved" else "⛔️ Denied") ++ " — access to " ++
    (truthy (some (s.host r.serverId))).getD "the server" ++ ", by " ++
    (truthy (some a.user.name)).getD a.user.email ++ "."

/-- `POST /interactions` -/
def interactions (d : Delivery) : State × Response :=
  match outcome signing presses frontendUrl s d with
  | .refused refusal =>
    ({ s with
        links := match refusal.link with
          | none => s.links
          | some link => Expiring.set s.links d.token link (some (s.world.now + linkTtlMs)) },
      refusal.response)
  | .handled => (s, ephemeral "That was already handled.")
  | .stopped a response =>
    ({ s with claims := takeClaim s d a.key, wasted := waste s d a.key }, response)
  | .reviewed a r =>
    let calls := s.calls ++ [⟨d.press, a.key, s.world.now, d.redisUp, a.params⟩]
    match s.world.review a.params with
    | .error e =>
      ({ s with claims := takeClaim s d a.key, wasted := waste s d a.key, calls }, notDone e)
    | .ok world => ({ s with claims := takeClaim s d a.key, world, calls }, done s a r)

end

/-! ## Runs -/

/-- A delivery, an operation of the service, or a change to the settings. -/
inductive Event where
  | deliver (d : Delivery)
  | serve (op : World.Op)
  | configure (destinations : List ChatDestination) (identities : List ChatIdentity)
      (allowProd : Id → Bool) (host : Id → String)

section

variable (signing : Signing) (presses : Nat → Option Payload) (frontendUrl : String) (cfg : Config)

def step (s : State) : Event → Option State
  | .deliver d => some (interactions signing presses frontendUrl s d).1
  | .serve op => (World.step cfg s.world op).map fun world ↦ { s with world }
  | .configure destinations identities allowProd host =>
    some { s with destinations, identities, allowProd, host }

end

end Shellius.Chat
