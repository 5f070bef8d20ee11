import Shellius.Sessions.Closing

/-!
# The list of live sessions

Sessions are listed by the rows that are active.  A row is created by the handler that has opened
a connection: the one of an SSH connection, once the client is connected, and the one that
guacamole-lite calls for a tunnel.  Either waits for the database in between, and a terminal is
in the hub only once its shell is open and its recording can be written.

Rows are closed on five kinds of evidence: what the hub says, that a connection was closed, the
age of the row, a restart, and an administrator.  The calls of `Shellius.Sessions.Closing` do the
closing here too; what is added is the connections, the handlers that open them, the two passes
over the rows, and the restart.
-/

namespace Shellius.Sessions.Listing

open Lib Terminal

/-! ## Connections -/

/-- A connection: an ssh2 client, or a tunnel of guacamole-lite. -/
inductive Link where
  | ssh (client : Nat)
  | rdp (connectionId : Nat)
deriving DecidableEq

/-- `SessionType` -/
def Link.isSsh : Link → Bool
  | .ssh _ => true
  | .rdp _ => false

inductive LinkState where
  | unused | up | down
deriving DecidableEq

/-- The keys that rows get, and what the columns of a row say of its connection: `sessionType`,
and the connection id in the metadata of an RDP session. -/
structure Columns where
  key : Link → Id
  link : Id → Option Link
  link_eq_some : ∀ {id l}, link id = some l ↔ key l = id

/-- The rows and the memory of the process, with the connections and the clients whose `close`
is handled by the handler that is waiting for the shell. -/
structure Process extends Store where
  links : Link → LinkState := fun _ ↦ .unused
  listening : Nat → Bool := fun _ ↦ false

/-- What is known of a session when its connection opens; `recordingKey` is the key of the
recording, if one can be written. -/
structure Start where
  orgId : Id
  recordingKey : Option String := none

/-- The pass that a row is closed by. -/
inductive Pass where
  | /-- `markStaleSessions` -/
    stale
  | /-- `reconcileOrphanedSessions` -/
    restart
deriving DecidableEq

/-- `metadataPatch` of a pass -/
def Pass.patch : Pass → Option (List (String × String))
  | .stale => none
  | .restart => some [("endReason", "server_restart")]

inductive Operation
  | /-- `runSsh2Session`, with the client connected. -/
    connect (client : Nat) (start : Start)
  | /-- `open` of guacamole-lite, with the metadata of the connection if it has all of it. -/
    openTunnel (connectionId : Nat) (start : Option Start)
  | /-- `close` of a client. -/
    clientClose (client : Nat)
  | /-- `close` of guacamole-lite. -/
    tunnelClose (connectionId : Nat)
  | terminateSession (orgId sessionId byUserId : Id)
  | /-- `hub.end` -/
    hubEnd (sessionId : Id) (reason : String) (extraMetadata : List (String × String))
  | /-- An RDP session that `endAllSessionsForUser` has found is ended. -/
    endRdp (sessionId : Id) (reason : String)
  | markStaleSessions

inductive Call
  | connect (client : Nat) (start : Start)
  | /-- `sessionService.create` creates the row of an SSH session, -/
    sshCreate (client : Nat) (start : Start)
  | /-- returns it, -/
    sshCreated (client : Nat) (start : Start)
  | /-- the shell is opened, -/
    sshShell (client : Nat) (start : Start)
  | /-- and the recording. -/
    sshRecord (client : Nat) (start : Start)
  | openTunnel (connectionId : Nat) (start : Option Start)
  | /-- `sessionService.create` creates the row of an RDP session, -/
    rdpCreate (connectionId : Nat) (start : Start)
  | /-- and returns it. -/
    rdpCreated (connectionId : Nat)
  | clientClose (client : Nat)
  | tunnelClose (connectionId : Nat)
  | endRdp (sessionId : Id) (reason : String)
  | markStaleSessions
  | reconcileOrphanedSessions
  | /-- The rows that a pass has still to look at. -/
    sweep (ids : List Id) (pass : Pass)
  | /-- A row is closed; then the pass goes on, if it is one. -/
    closing (k : Sessions.Call) (ids : List Id) (pass : Pass)

/-- A row is closed, but not by a pass. -/
abbrev Call.alone (k : Sessions.Call) : Call := .closing k [] .stale

def start : Operation → Call
  | .connect client start => .connect client start
  | .openTunnel connectionId start => .openTunnel connectionId start
  | .clientClose client => .clientClose client
  | .tunnelClose connectionId => .tunnelClose connectionId
  | .terminateSession orgId sessionId byUserId => .alone (.ask orgId sessionId byUserId)
  | .hubEnd sessionId reason extraMetadata => .alone (.take sessionId reason extraMetadata)
  | .endRdp sessionId reason => .endRdp sessionId reason
  | .markStaleSessions => .markStaleSessions

def resume (ids : List Id) (pass : Pass) : Option Call :=
  if ids = [] then none else some (.sweep ids pass)

/-- `STALE_SESSION_HOURS`, in milliseconds -/
def staleMs : Millis := 24 * 60 * 60 * 1000

/-! ## What a step does -/

namespace Process

variable (p : Process)

def setLink (l : Link) (state : LinkState) : Process :=
  { p with links := Function.update p.links l state }

def create (id : Id) (start : Start) : Option Process :=
  (p.sessions.insert? { id, orgId := start.orgId, startedAt := p.now }).map fun sessions ↦
    { p with sessions }

def listen (client : Nat) (listens : Bool) : Process :=
  { p with listening := Function.update p.listening client listens }

/-- `hub.create` -/
def register (id : Id) (start : Start) : Process :=
  { p with hub := Function.update p.hub id (some ⟨start.orgId, start.recordingKey⟩) }

/-- The maps of the guacamole-lite connections are filled. -/
def know (connectionId : Nat) (id : Id) : Process :=
  { p with
    rdpSessionByConn := Function.update p.rdpSessionByConn connectionId (some id)
    rdpConnBySession := Function.update p.rdpConnBySession id (some connectionId) }

/-- `endAllSessionsForUser` forgets the connection of a session and closes it. -/
def dropConn (sessionId : Id) : Process :=
  match p.rdpConnBySession sessionId with
  | none => p
  | some connectionId =>
    { p with
      rdpConnBySession := Function.update p.rdpConnBySession sessionId none
      rdpSessionByConn := fun n ↦
        if p.rdpSessionByConn n = some sessionId then none else p.rdpSessionByConn n
      links := Function.update p.links (.rdp connectionId) .down }

/-- The rows that `markStaleSessions` finds. -/
def staleIds : List Id :=
  (p.sessions.rows.filter fun row ↦ row.status = .active ∧ row.startedAt < p.now - staleMs).map
    Session.id

/-- The rows that `reconcileOrphanedSessions` finds. -/
def orphanIds (c : Columns) : List Id :=
  (p.sessions.rows.filter fun row ↦ row.status = .active ∧
    (c.link row.id).any Link.isSsh).map Session.id

end Process

section

variable (c : Columns) (toISOString : Millis → String)

/-- A session whose shell could not be opened is over. -/
def failed (client : Nat) : Call :=
  .alone (.readEnd (c.key (.ssh client)) .terminated (some [("endReason", "error")]))

/-- A step of a call; `ok` says whether the database creates the row, whether the shell opens,
or whether the recording has been uploaded. -/
def act (p : Process) (ok : Bool) : Call → Process × Option Call
  | .connect client start =>
    if p.links (.ssh client) = .unused then
      (p.setLink (.ssh client) .up, some (.sshCreate client start))
    else (p, none)
  | .sshCreate client start =>
    match if ok then p.create (c.key (.ssh client)) start else none with
    | some p' => (p', some (.sshCreated client start))
    | none => (p.setLink (.ssh client) .down, none)
  | .sshCreated client start =>
    -- `shell` throws where the client is not connected any more
    if p.links (.ssh client) = .up then (p.listen client true, some (.sshShell client start))
    else (p, none)
  | .sshShell client start =>
    (p.listen client false,
      if ok ∧ p.links (.ssh client) = .up then some (.sshRecord client start)
      else some (failed c client))
  | .sshRecord client start => (p.register (c.key (.ssh client)) start, none)
  | .openTunnel connectionId start =>
    if p.links (.rdp connectionId) = .unused then
      (p.setLink (.rdp connectionId) .up, start.map (.rdpCreate connectionId))
    else (p, none)
  | .rdpCreate connectionId start =>
    match if ok then p.create (c.key (.rdp connectionId)) start else none with
    | some p' => (p', some (.rdpCreated connectionId))
    | none => (p, none)
  | .rdpCreated connectionId => (p.know connectionId (c.key (.rdp connectionId)), none)
  | .clientClose client =>
    if p.links (.ssh client) = .up then
      match p.hub (c.key (.ssh client)) with
      | some live =>
        -- the hub listens from the time it has the session, and ends it at once
        ({ p.setLink (.ssh client) .down with toStore := p.leaveHub (c.key (.ssh client)) },
          some (.alone (Store.afterTake live (c.key (.ssh client)) "exit" [])))
      | none =>
        (p.setLink (.ssh client) .down,
          if p.listening client then some (failed c client) else none)
    else (p, none)
  | .tunnelClose connectionId =>
    if p.links (.rdp connectionId) = .up then
      (p.setLink (.rdp connectionId) .down, some (.alone (.lookup connectionId)))
    else (p, none)
  | .endRdp sessionId reason =>
    if (p.sessions.find sessionId).isSome ∧ (c.link sessionId).all (!·.isSsh) then
      (p.dropConn sessionId,
        some (.alone (.readEnd sessionId .terminated (some [("endReason", reason)]))))
    else (p, none)
  | .markStaleSessions => (p, resume p.staleIds .stale)
  | .reconcileOrphanedSessions => (p, resume (p.orphanIds c) .restart)
  | .sweep [] _ => (p, none)
  | .sweep (id :: ids) pass =>
    if pass = .restart ∧ (p.hub id).isSome then (p, resume ids pass)
    else (p, some (.closing (.readEnd id .ended pass.patch) ids pass))
  | .closing (.closeConn sessionId) ids pass =>
    let p' : Process := { p with toStore := effect p.toStore (.closeConn sessionId) }
    match p.rdpConnBySession sessionId with
    | none => (p', resume ids pass)
    | some connectionId =>
      if p.links (.rdp connectionId) = .up then
        (p'.setLink (.rdp connectionId) .down, some (.closing (.lookup connectionId) ids pass))
      else (p', resume ids pass)
  | .closing k ids pass =>
    ({ p with toStore := effect p.toStore k },
      match Sessions.next toISOString p.toStore ok k with
      | some k' => some (.closing k' ids pass)
      | none => resume ids pass)

/-! ## Runs -/

def program : Program Process Operation Call Bool Millis where
  start
  act _ p k ok := some (act c toISOString p ok k)
  env p now := if p.now ≤ now then some { p with now } else none

/-- The memory of a process that starts again; every connection is down. -/
def Process.restart (p : Process) : Process :=
  { p with
    hub := fun _ ↦ none
    rdpSessionByConn := fun _ ↦ none
    rdpConnBySession := fun _ ↦ none
    links := fun l ↦ if p.links l = .up then .down else p.links l
    listening := fun _ ↦ false }

/-- A call begins, takes a step, time passes, or the backend is restarted. -/
inductive Happening
  | spawn (i : Nat) (op : Operation)
  | act (i : Nat) (ok : Bool)
  | time (now : Millis)
  | restart

/-- The pool of calls.  A restart leaves none but the pass over the rows that a backend starts
with. -/
def step (q : Pool Process Call) : Happening → Option (Pool Process Call)
  | .spawn i op => (program c toISOString).step q (.spawn i op)
  | .act i ok => (program c toISOString).step q (.act i ok)
  | .time now => (program c toISOString).step q (.env now)
  | .restart =>
    some ⟨q.store.restart, Function.update (fun _ ↦ none) 0 (some .reconcileOrphanedSessions)⟩

/-- The first start, with nothing in the database. -/
def started : Pool Process Call := Program.idle Call { now := 0 }

/-! ## What the list says -/

/-- A terminal is live while it is in the hub and its client is connected, and a tunnel while it
is open. -/
def Live (p : Process) (l : Link) : Prop :=
  p.links l = .up ∧ ∀ client, l = .ssh client → (p.hub (c.key l)).isSome = true

/-- A row is active exactly when its connection is live, unless a call is on its way. -/
def Truthful (q : Pool Process Call) : Prop :=
  (∀ i, q.calls i = none) → ∀ row ∈ q.store.sessions,
    (row.status = .active ↔ ∃ l, c.key l = row.id ∧ Live c q.store l)

end

end Shellius.Sessions.Listing
