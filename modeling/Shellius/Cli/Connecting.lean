import Shellius.Lib.Pool
import Shellius.Schema

/-!
# Connecting from the CLI

`tui/internal/tui/app.go` and `accessrequest.go`: the app shows one screen at a time, and what a
command brings back is a message that goes to the screen that is shown when it comes.  Every command
is a task here, which may be done at any later moment; one that brings nothing but a message is a
task too, as it comes later as well.  The palette is no screen of its own, and what it opens is
opened at any moment.

An identifier of a request belongs to one server, `serverOf`, and the API answers accordingly: an
intent is about the server that was asked for, and so is the request that a form submits.
-/

namespace Shellius.Cli.Connecting

open Lib

/-! ## Hosts and requests -/

/-- `Host`, as far as a connection looks at it. -/
structure Host where
  id : Id := ""
  name : String := ""
  hostname : String := ""
deriving DecidableEq

/-- `serverDisplayName` -/
def Host.displayName (h : Host) : String := if h.name = "" then h.hostname else h.name

structure AccessRequest where
  id : Id
  serverId : Id
  status : String := "APPROVED"
  protocol : String := ""
  displayName : String := ""
  hostname : String := ""

/-- `hostFromRequest` -/
def AccessRequest.host (r : AccessRequest) : Host := ⟨r.serverId, r.displayName, r.hostname⟩

structure AccessIntent where
  hasActiveAccess : Bool := false
  hasPendingRequest : Bool := false
  protocol : String := ""
  activeAccessRequest : Option AccessRequest := none

/-- `strings.EqualFold` with the name of the protocol. -/
def isRDP (protocol : String) : Bool := protocol.toLower = "rdp"

/-! ## Screens -/

inductive View
  | login
  | activeAccess
  | hostList
  | accessRequest
  | myRequests
  | overlay
  | error
deriving DecidableEq

inductive AccessRequestState
  | loadingIntent
  | form
  | submitting
  | polling
  | approved
  | denied
  | webTerminal
  | error
deriving DecidableEq

/-- `AccessRequestModel`.  The last field is no part of the code: which selection of the user the
form was opened for. -/
structure AccessRequestModel where
  host : Host := {}
  state : AccessRequestState := .loadingIntent
  protocolSSH : Bool := true
  request : Option AccessRequest := none
  turn : Nat := 0

/-- What is done, or comes as a message, at some later moment. -/
inductive Task
  | hostSelected (host : Host)
  | activeAccessConnect (req : AccessRequest)
  | navBack
  | fetchIntent (hostId : Id)
  | arErr
  | submit (hostId : Id)
  | pollRequest (id : Id)
  | arApproved (id : Id) (protocol : String)
  | getSshCredentials (id : Id) (host : Host)
  | sshConnect (id : Id) (host : Host)
  | connectRDP (id : Id) (hostLabel : String)
  | ssh
  | rdpLaunched
  | arWebTerminal

/-- Where a selection is made. -/
inductive Origin
  | hostList
  | activeAccess

/-- The screen from which a selection connects. -/
def Origin.view : Origin → View
  | .hostList => .accessRequest
  | .activeAccess => .activeAccess

/-- A task.  Which selection it was started for is no part of the code. -/
structure Flight where
  task : Task
  turn : Nat
  origin : Origin

/-- A connection that was started, the name and the identifier that are recorded for it, and what is
no part of the code: the server that the user had selected last, and whether the user had left the
screen. -/
structure Connection where
  requestId : Id
  name : String
  serverId : Option Id
  selected : Host
  left : Bool
deriving DecidableEq

/-- `AppModel`.  The last three fields are no part of the code: how many selections the user has
made, the server that was selected last, and the connections. -/
structure App where
  view : View := .activeAccess
  prevView : View := .activeAccess
  selectedHost : Host := {}
  accessRequest : AccessRequestModel := {}
  tasks : List Flight := []
  turn : Nat := 0
  selected : Host := {}
  connections : List Connection := []

/-! ## Messages -/

/-- What a task brings. -/
inductive Answer
  | intent (i : AccessIntent)
  | request (r : AccessRequest)
  | done
  | fallback
  | failed

namespace App

variable (s : App)

def start (f : Flight) (task : Task) : App := { s with tasks := s.tasks ++ [{ f with task }] }

/-- The form is changed by a message. -/
def setForm (state : AccessRequestState) (request : Option AccessRequest) : App :=
  { s with accessRequest := { s.accessRequest with state, request } }

def connect (f : Flight) (requestId : Id) (name : String) (serverId : Option Id) : App :=
  { s with
    connections := s.connections ++ [{
      requestId, name, serverId
      selected := s.selected
      left := s.view ≠ f.origin.view ∨ f.turn ≠ s.turn }] }

/-- `appErrMsg` -/
def appErr : App := { s with prevView := s.view, view := .error }

/-- The screen that an overlay covers. -/
def goBack : App := { s with view := if s.prevView = .error then .activeAccess else s.prevView }

/-- `arIntentLoadedMsg` -/
def intentLoaded (f : Flight) (i : AccessIntent) : App :=
  let form := s.accessRequest
  let form := { form with protocolSSH := form.protocolSSH && i.protocol ≠ "RDP" }
  let s := { s with accessRequest := form }
  match i.activeAccessRequest with
  | some r =>
    if i.hasActiveAccess then
      (s.setForm .approved form.request).start f
        (.arApproved r.id (if r.protocol = "" then i.protocol else r.protocol))
    else if i.hasPendingRequest then (s.setForm .polling (some r)).start f (.pollRequest r.id)
    else s.setForm .form form.request
  | none => s.setForm .form form.request

/-- `arErrMsg` -/
def arErr : App :=
  let form := s.accessRequest
  s.setForm (if form.state = .form ∨ form.state = .submitting then .form else .error) form.request

/-- `arPollMsg` -/
def polled (f : Flight) (r : AccessRequest) : App :=
  if r.status = "APPROVED" then
    (s.setForm .approved (some r)).start f (.arApproved r.id
      (if r.protocol = "" ∧ s.accessRequest.protocolSSH = false then "RDP" else r.protocol))
  else if r.status ∈ ["DENIED", "REVOKED", "EXPIRED"] then s.setForm .denied (some r)
  else (s.setForm s.accessRequest.state (some r)).start f (.pollRequest r.id)

/-- `connectFromAR`, and the end of a form. -/
def fetchCredentials (f : Flight) (id : Id) (protocol : String) (host : Host) : App :=
  if isRDP protocol then s.start f (.connectRDP id host.displayName)
  else s.start f (.getSshCredentials id host)

/-- A message that only the form knows. -/
def onForm (t : App) : App := if s.view = .accessRequest then t else s

end App

/-- A task is done; what it brings fits what was asked for. -/
def receive (serverOf : Id → Id) (s : App) (f : Flight) : Task → Answer → Option App
  | .hostSelected host, .done =>
    some (if s.view = .hostList then
      { s with
        selectedHost := host
        prevView := .hostList
        view := .accessRequest
        accessRequest := { host, turn := f.turn } }.start f (.fetchIntent host.id)
    else s)
  | .activeAccessConnect req, .done =>
    some (if s.view = .activeAccess then s.fetchCredentials f req.id req.protocol req.host else s)
  | .navBack, .done =>
    some (if s.view = .accessRequest ∨ s.view = .myRequests then s.goBack else s)
  | .fetchIntent hostId, .intent i =>
    if ∀ r ∈ i.activeAccessRequest, serverOf r.id = hostId then
      some (s.onForm (s.intentLoaded f i))
    else none
  | .fetchIntent _, .failed => some (s.onForm (s.setForm .form s.accessRequest.request))
  | .arErr, .done => some (s.onForm s.arErr)
  | .submit hostId, .request r =>
    if serverOf r.id = hostId then
      some (s.onForm ((s.setForm .polling (some r)).start f (.pollRequest r.id)))
    else none
  | .submit _, .failed => some (s.onForm s.arErr)
  | .pollRequest id, .request r =>
    if r.id = id then some (s.onForm (s.polled f r)) else none
  | .pollRequest _, .failed => some (s.onForm s.arErr)
  | .arApproved id protocol, .done =>
    some (s.onForm (s.fetchCredentials f id protocol s.selectedHost))
  | .getSshCredentials id host, .done => some (s.start f (.sshConnect id host))
  | .getSshCredentials .., .fallback => some (s.start f .arWebTerminal)
  | .getSshCredentials .., .failed => some s.appErr
  -- The app connects, whatever it shows.
  | .sshConnect id host, .done =>
    some ((s.connect f id host.displayName (some host.id)).start f .ssh)
  | .sshConnect .., .failed => some s.appErr
  | .connectRDP id hostLabel, .done =>
    some ((s.connect f id hostLabel none).start f .rdpLaunched)
  | .connectRDP .., .fallback => some (s.start f .arWebTerminal)
  | .connectRDP .., .failed => some s.appErr
  | .ssh, .done | .rdpLaunched, .done => some { s with view := .activeAccess }
  | .ssh, .failed => some s.appErr
  | .arWebTerminal, .done => some (s.onForm (s.setForm .webTerminal s.accessRequest.request))
  | _, _ => none

/-! ## Steps -/

inductive Event
  | enterHost (host : Host)
  | enterRequest (req : AccessRequest)
  | toggleProtocol
  | /-- Enter on the last field of the form, whose fields are valid or not. -/
    validateAndSubmit (valid : Bool)
  | esc
  | message (n : Nat) (answer : Answer)
  | openHostList
  | openMyRequests
  | openOverlay
  | sessionExpired
  | loginSuccess

def step (serverOf : Id → Id) (s : App) : Event → Option App
  | .enterHost host =>
    if s.view = .hostList then
      some { s with
        turn := s.turn + 1
        selected := host
        tasks := s.tasks ++ [⟨.hostSelected host, s.turn + 1, .hostList⟩] }
    else none
  | .enterRequest req =>
    if s.view = .activeAccess ∧ serverOf req.id = req.serverId then
      some { s with
        turn := s.turn + 1
        selected := req.host
        tasks := s.tasks ++ [⟨.activeAccessConnect req, s.turn + 1, .activeAccess⟩] }
    else none
  | .toggleProtocol =>
    if s.view = .accessRequest ∧ s.accessRequest.state = .form then
      some { s with
        accessRequest := { s.accessRequest with protocolSSH := !s.accessRequest.protocolSSH } }
    else none
  | .validateAndSubmit valid =>
    -- The state stays as it is.
    if s.view = .accessRequest ∧ s.accessRequest.state = .form then
      some (s.start ⟨.arErr, s.accessRequest.turn, .hostList⟩
        (if valid then .submit s.accessRequest.host.id else .arErr))
    else none
  | .esc =>
    match s.view with
    | .accessRequest =>
      if s.accessRequest.state ∈ [.form, .denied, .error] then
        some (s.start ⟨.arErr, s.accessRequest.turn, .hostList⟩ .navBack)
      else none
    | .myRequests => some (s.start ⟨.arErr, s.turn, .hostList⟩ .navBack)
    | .overlay => some s.goBack
    | .hostList | .error => some { s with view := .activeAccess }
    | .activeAccess | .login => none
  | .message n answer =>
    (s.tasks[n]?).bind fun f ↦
      receive serverOf { s with tasks := s.tasks.eraseIdx n } f f.task answer
  | .openHostList => some { s with prevView := s.view, view := .hostList }
  | .openMyRequests => some { s with prevView := s.view, view := .myRequests }
  | .openOverlay => some { s with prevView := s.view, view := .overlay }
  | .sessionExpired => some { s with view := .login }
  | .loginSuccess => if s.view = .login then some { s with view := .activeAccess } else none

/-! ## What is asked of the CLI -/

/-- A request of a form that is being submitted. -/
def Flight.submits (turn : Nat) (f : Flight) : Bool :=
  f.turn = turn && match f.task with
    | .submit _ => true
    | _ => false

/-- A connection is for the server that the user selected last, is recorded under its name, and was
started on the screen where it was selected. -/
structure Connection.Chosen (serverOf : Id → Id) (c : Connection) : Prop where
  server : serverOf c.requestId = c.selected.id
  name : c.name = c.selected.displayName
  serverId : ∀ id ∈ c.serverId, id = c.selected.id
  stayed : c.left = false

/-- Every connection is where the user chose, and a form submits one request at a time. -/
structure App.Chosen (serverOf : Id → Id) (s : App) : Prop where
  connections : ∀ c ∈ s.connections, c.Chosen serverOf
  once : ∀ turn, s.tasks.countP (Flight.submits turn) ≤ 1

end Shellius.Cli.Connecting
