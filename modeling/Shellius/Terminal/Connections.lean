import Shellius.Terminal.Hub
import Shellius.Text

/-!
# Connections

`terminalService.handleConnection` and `runSsh2Session`, from the upgrade of a WebSocket to the
session that the hub takes over, with `userService.revokeAllAccessFor` and
`terminalHub.checkExpiries` beside them.  What a call does between two `await`s is one step, and
any number of calls go on side by side.

A WebSocket counts as open until it is closed or its `close` event has been emitted.  Before a
connection is registered with the hub, nobody listens for that event; afterwards it detaches
the socket.  The rows of sessions, the history of Quick Connect and what is sent to a socket
are left out.  A call does not die on its own: what it throws is caught, or ends the process
and the hub with it.
-/

namespace Shellius.Terminal

open Lib

/-! ## The process -/

/-- `User`, with the columns that decide whether it may open a terminal. -/
structure Account where
  orgId : Id
  status : UserStatus
  sessionsValidFrom : Option Millis := none

structure AccessRequest where
  orgId : Id
  requesterId : Id
  status : AccessRequestStatus
  expiresAt : Option Millis

abbrev Client := Nat

/-- The hub, the tables, the sockets with the sessions that their `close` handlers detach them
from, the clients that have been ended or have closed, the client of each session, and the
sessions that a recording writer was opened for. -/
structure Process where
  hub : Hub := {}
  users : Id → Option Account := fun _ ↦ none
  requests : Id → Option AccessRequest := fun _ ↦ none
  nextSocket : Socket := 0
  nextClient : Client := 0
  wired : List (Socket × Id) := []
  down : List Client := []
  clientOf : Id → Option Client := fun _ ↦ none
  recorded : List Id := []

structure WsTicket where
  userId : Id
  orgId : Id
  requestId : Option Id := none
  ticket : Option String := none
  attach : Option Id := none
  issuedAt : Option Millis := none
deriving DecidableEq

def WsTicket.owner (t : WsTicket) : Owner := ⟨t.userId, t.orgId⟩

/-- What `runSsh2Session` is called with: the socket, the `sessionMeta`, and whether there is a
server to pin the host key of. -/
structure Meta where
  ws : Socket
  owner : Owner
  authMethod : String
  accessRequestId : Option Id := none
  accessRequestExpiresAt : Option Millis := none
  pinServer : Bool := true
deriving DecidableEq

namespace Process

variable (ttl : Nat) (p : Process)

def safeClose (ws : Socket) : Process :=
  { p with hub := { p.hub with closed := p.hub.closed ++ [ws] } }

/-- `client.end()` -/
def endClient (client : Client) : Process := { p with down := p.down ++ [client] }

def wiredTo (ws : Socket) : List Id := (p.wired.filter fun w ↦ w.1 = ws).map Prod.snd

/-- The `close` and `error` handlers of `wireAttachedSocket`. -/
def detachAll (ws : Socket) : Process :=
  { p with hub := (p.wiredTo ws).foldl (fun hub id ↦ hub.detach ttl id ws) p.hub }

/-- The check of the user's row. -/
def admits (t : WsTicket) : Bool :=
  (p.users t.userId).any fun user ↦ user.orgId = t.orgId ∧ user.status = .active ∧
    ∀ validFrom ∈ user.sessionsValidFrom, ∀ issuedAt ∈ t.issuedAt, ¬ issuedAt < validFrom

def usable (t : WsTicket) (row : AccessRequest) : Bool :=
  row.orgId = t.orgId ∧ row.requesterId = t.userId ∧ row.status = .approved ∧
    row.expiresAt.any fun expiresAt ↦ p.hub.now < expiresAt

/-- The shell is open: `hub.create`, `hub.addSocket` and `wireAttachedSocket`. -/
def register (c : Meta) (client : Client) (sessionId : Id) (recording : Bool) : Process :=
  { p with
    hub := (p.hub.create sessionId c.owner recording c.accessRequestId
      c.accessRequestExpiresAt).addSocket sessionId c.ws
    wired := p.wired ++ [(c.ws, sessionId)]
    clientOf := Function.update p.clientOf sessionId (some client)
    recorded := if recording then p.recorded ++ [sessionId] else p.recorded }

/-- The rows that the query of `checkExpiries` selects. -/
def arsOf (withAr : List Id) : List Hub.Ar :=
  withAr.filterMap fun id ↦ do
    let rec ← p.hub.recs id
    let requestId ← rec.accessRequestId
    let row ← p.requests requestId
    some ⟨requestId, row.status, row.expiresAt⟩

/-- `updateMany` of `revokeAllAccessFor`. -/
def revokeRequests (orgId userId : Id) : Process :=
  { p with requests := fun id ↦ (p.requests id).map fun row ↦
      if row.requesterId = userId ∧ row.orgId = orgId ∧
          (row.status = .pending ∨ row.status = .approved) then
        { row with status := .revoked }
      else row }

def bumpSessionsValidFrom (userId : Id) : Process :=
  { p with users := fun id ↦ if id = userId then
      (p.users id).map fun user ↦ { user with sessionsValidFrom := some p.hub.now }
    else p.users id }

end Process

/-! ## Calls -/

inductive Call where
  | handleConnection
  | revokeAllAccessFor (orgId userId : Id) (sessionReason : String)
  | checkExpiries

/-- What a call is waiting for. -/
inductive Point where
  /-- The upgrade. -/
  | upgrade
  /-- `wsTicketService.consume` -/
  | consume (ws : Socket)
  /-- The row of the user. -/
  | user (ws : Socket) (t : WsTicket)
  /-- `resolveScope` -/
  | scope (ws : Socket) (t : WsTicket)
  /-- `quickConnectService.consumeTicket` -/
  | quickTicket (ws : Socket) (t : WsTicket)
  /-- The saved server that a Quick Connect host may match. -/
  | quickServer (ws : Socket) (t : WsTicket)
  /-- `accessRequestService.getById` -/
  | request (ws : Socket) (t : WsTicket) (requestId : Id)
  /-- The server of the access request. -/
  | server (ws : Socket) (t : WsTicket) (requestId : Id) (expiresAt : Option Millis)
  /-- `resolveServerAuth` or `generateSshCredentials` -/
  | auth (c : Meta)
  /-- `connectSsh` -/
  | connect (c : Meta)
  /-- `checkAndPinHostKey` -/
  | hostKey (c : Meta) (client : Client)
  /-- `sessionService.create` -/
  | row (c : Meta) (client : Client)
  /-- The callback of `client.shell`. -/
  | shell (c : Meta) (client : Client) (sessionId : Id)
  /-- `sessionService.end`, as there is no shell. -/
  | noShell (client : Client)
  /-- `openRecordingWriter` -/
  | writer (c : Meta) (client : Client) (sessionId : Id)
  /-- `apiTokenService.revokeAllForUser` -/
  | tokens (orgId userId : Id) (reason : String)
  /-- The `updateMany`s. -/
  | requests (orgId userId : Id) (reason : String)
  /-- `revokeAllFamiliesForUser` -/
  | families (orgId userId : Id) (reason : String)
  | validFrom (orgId userId : Id) (reason : String)
  /-- `endAllSessionsForUser` is about to run. -/
  | sweep (orgId userId : Id) (reason : String)
  /-- `checkExpiries` is about to run. -/
  | tick
  /-- The query of `checkExpiries`. -/
  | query (now : Millis) (withAr : List Id)
deriving DecidableEq

/-- How that ends. -/
inductive Answer where
  | done
  | failed
  /-- The payload of the ws-ticket. -/
  | ticket (t : WsTicket)
  /-- Whether there is a server. -/
  | matched (found : Bool)
  | authMode (mode : ServerAuthMode)
  /-- The client is ready, and whether it has told its host key. -/
  | connected (hostKey : Bool)
  /-- The row of the session. -/
  | session (sessionId : Id)
  /-- The client fails before there is a shell. -/
  | clientError
  /-- Whether the session is recorded. -/
  | opened (recording : Bool)
deriving DecidableEq

def start : Call → Point
  | .handleConnection => .upgrade
  | .revokeAllAccessFor orgId userId sessionReason => .tokens orgId userId sessionReason
  | .checkExpiries => .tick

/-- `handleConnection`, up to the call of `runSsh2Session`. -/
def handle (p : Process) : Point → Answer → Option (Process × Option Point)
  | .upgrade, .done =>
    some ({ p with nextSocket := p.nextSocket + 1 }, some (.consume p.nextSocket))
  | .upgrade, .failed =>
    some ({ p with nextSocket := p.nextSocket + 1 }.safeClose p.nextSocket, none)
  | .consume ws, .ticket t =>
    if truthy t.requestId = none ∧ truthy t.ticket = none ∧ truthy t.attach = none then
      some (p.safeClose ws, none)
    else some (p, some (.user ws t))
  | .user ws t, .done =>
    if p.admits t then some (p, some (.scope ws t)) else some (p.safeClose ws, none)
  | .scope ws t, .done =>
    match truthy t.attach, truthy t.ticket with
    | some sessionId, _ =>
      match p.hub.attach sessionId ws t.owner with
      | .ok hub => some ({ p with hub, wired := p.wired ++ [(ws, sessionId)] }, none)
      | .error _ => some (p.safeClose ws, none)
    | none, some _ => some (p, some (.quickTicket ws t))
    | none, none => some (p, some (.request ws t (t.requestId.getD "")))
  | .quickTicket ws t, .done => some (p, some (.quickServer ws t))
  | .quickServer ws t, .matched pinServer =>
    some (p, some (.connect { ws, owner := t.owner, authMethod := "quick_connect", pinServer }))
  | .request ws t requestId, .done =>
    match p.requests requestId with
    | none => some (p.safeClose ws, none)
    | some row =>
      if p.usable t row then some (p, some (.server ws t requestId row.expiresAt))
      else some (p.safeClose ws, none)
  | .server ws t requestId expiresAt, .authMode mode =>
    some (p, some (.auth
      { ws, owner := t.owner
        authMethod := if mode = .credential then "credential" else "certificate"
        accessRequestId := some requestId
        accessRequestExpiresAt := expiresAt }))
  | .auth c, .done => some (p, some (.connect c))
  | .consume ws, .failed | .user ws _, .failed | .scope ws _, .failed | .quickTicket ws _, .failed
  | .quickServer ws _, .failed | .request ws _ _, .failed | .server ws _ _ _, .failed =>
    some (p.safeClose ws, none)
  | .auth c, .failed => some (p.safeClose c.ws, none)
  | _, _ => none

def runSsh2Session (p : Process) : Point → Answer → Option (Process × Option Point)
  | .connect c, .failed => some (p.safeClose c.ws, none)
  | .connect c, .connected hostKey =>
    let opened := { p with nextClient := p.nextClient + 1 }
    if c.pinServer ∧ hostKey then some (opened, some (.hostKey c p.nextClient))
    else some (opened, some (.row c p.nextClient))
  | .hostKey c client, .failed => some ((p.endClient client).safeClose c.ws, none)
  | .hostKey c client, .done => some (p, some (.row c client))
  | .row c client, .failed => some ((p.endClient client).safeClose c.ws, none)
  | .row c client, .session sessionId =>
    -- `shell` throws if the client is not connected any more
    if client ∈ p.down then some (p.safeClose c.ws, none)
    else some (p, some (.shell c client sessionId))
  | .shell c client sessionId, .clientError => some (p.safeClose c.ws, some (.shell c client sessionId))
  | .shell c client _, .failed => some (p.safeClose c.ws, some (.noShell client))
  | .shell c client sessionId, .done => some (p, some (.writer c client sessionId))
  | .noShell client, .done | .noShell client, .failed => some (p.endClient client, none)
  | .writer c client sessionId, .opened recording =>
    if p.hub.recs sessionId = none then some (p.register c client sessionId recording, none)
    else none
  | _, _ => none

/-- `revokeAllAccessFor` -/
def revoke (p : Process) : Point → Answer → Option (Process × Option Point)
  | .tokens orgId userId reason, .done => some (p, some (.requests orgId userId reason))
  | .requests orgId userId reason, .done =>
    some (p.revokeRequests orgId userId, some (.families orgId userId reason))
  | .families orgId userId reason, .done => some (p, some (.validFrom orgId userId reason))
  | .validFrom orgId userId reason, .done =>
    some (p.bumpSessionsValidFrom userId, some (.sweep orgId userId reason))
  | .sweep orgId userId reason, .done =>
    some ({ p with hub := p.hub.endAllForUser userId (some orgId) reason }, none)
  | .tokens .., .failed | .requests .., .failed | .families .., .failed | .validFrom .., .failed =>
    some (p, none)
  | _, _ => none

/-- `checkExpiries` -/
def check (p : Process) : Point → Answer → Option (Process × Option Point)
  | .tick, .done =>
    let swept := Hub.sweep p.hub.now p.hub.sessions (p.hub, [])
    some ({ p with hub := swept.1 },
      if swept.2 = [] then none else some (.query p.hub.now swept.2))
  | .query now withAr, .done =>
    some ({ p with hub := withAr.foldl (Hub.judge now (p.arsOf withAr)) p.hub }, none)
  | .query .., .failed => some (p, none)
  | _, _ => none

/-- The next step of a call. -/
def act (p : Process) (k : Point) (a : Answer) : Option (Process × Option Point) :=
  match k with
  | .upgrade | .consume _ | .user .. | .scope .. | .quickTicket .. | .quickServer .. | .request ..
  | .server .. | .auth _ => handle p k a
  | .connect _ | .hostKey .. | .row .. | .shell .. | .noShell _ | .writer .. => runSsh2Session p k a
  | .tokens .. | .requests .. | .families .. | .validFrom .. | .sweep .. => revoke p k a
  | .tick | .query .. => check p k a

/-! ## What else happens -/

def mayBecome : AccessRequestStatus → AccessRequestStatus → Bool
  | .pending, _ => true
  | .approved, next => next = .approved ∨ next = .expired ∨ next = .revoked
  | status, next => status = next

inductive Outside where
  /-- Something that the hub does on its own or for others. -/
  | hub (e : Event)
  /-- The `close` event of a socket. -/
  | close (ws : Socket)
  /-- The `error` event of a socket. -/
  | error (ws : Socket)
  /-- A client closes. -/
  | clientClose (client : Client)
  /-- The row of a user is written. -/
  | account (userId : Id) (row : Account)
  /-- A user asks for access. -/
  | ask (id : Id) (row : AccessRequest)
  /-- An access request is decided on, or expires. -/
  | rule (id : Id) (status : AccessRequestStatus) (expiresAt : Option Millis)

/-- What the hub does without a connection and without `checkExpiries`. -/
def ofHub : Event → Bool
  | .data .. | .endSession .. | .closeOwned .. | .resume .. | .fire _ | .endAllForUser .. | .endAll _
  | .tick _ => true
  | .create .. | .addSocket .. | .attach .. | .detach .. | .checkExpiries | .checked .. | .close _ => false

/-- What happens outside the calls.  Whoever asks for access has an active account. -/
def outside (ttl : Nat) (p : Process) : Outside → Option Process
  | .hub e => if ofHub e then (step ttl p.hub e).map fun hub ↦ { p with hub } else none
  | .close ws => some ((p.safeClose ws).detachAll ttl ws)
  | .error ws => some (p.detachAll ttl ws)
  | .clientClose client => some (p.endClient client)
  | .account userId row =>
    if (p.users userId).all fun user ↦ user.orgId = row.orgId then
      some { p with users := Function.update p.users userId (some row) }
    else none
  | .ask id row =>
    if p.requests id = none ∧ (p.users row.requesterId).any fun user ↦
        user.orgId = row.orgId ∧ user.status = .active then
      some { p with requests := Function.update p.requests id (some row) }
    else none
  | .rule id status expiresAt =>
    match p.requests id with
    | none => none
    | some row =>
      if mayBecome row.status status then
        some { p with requests := Function.update p.requests id (some { row with status, expiresAt }) }
      else none

def program (ttl : Nat) : Program Process Call Point Answer Outside where
  start := start
  act _ := act
  env := outside ttl

end Shellius.Terminal
