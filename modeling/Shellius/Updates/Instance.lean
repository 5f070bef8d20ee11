import Shellius.Lib.Checks
import Shellius.Lib.Keyed
import Shellius.Lib.Pool
import Shellius.Lib.Select
import Shellius.Updates.Versions

/-!
# Upgrades of the installation

`services/instanceUpdateService.js`.  Nothing here upgrades anything: a person asks for an upgrade,
a helper on the host claims what has been asked for, and reports what became of it.

A request looks whether another is open and then creates a row; a report reads the row and then
writes it; a claim and a withdrawal are conditional writes.  The calls are interleaved at these
steps.  A request that is made between a look and the creation, or that is finished between a
reading and the writing, is not noticed: `Prompt` is the condition that this does not happen.
-/

namespace Shellius.Updates

open Lib

/-! ## Requests -/

inductive Status
  | requested | claimed | running | succeeded | failed | cancelled
deriving DecidableEq

namespace Status

/-- Statuses that mean "still in flight": `OPEN`. -/
def isOpen : Status → Bool
  | requested | claimed | running => true
  | succeeded | failed | cancelled => false

/-- `TERMINAL` -/
def isTerminal (s : Status) : Bool := !s.isOpen

def isReport : Status → Bool
  | running | succeeded | failed | cancelled => true
  | requested | claimed => false

/-- How far the upgrade has come. -/
def stage : Status → Nat
  | requested => 0
  | claimed => 1
  | running => 2
  | succeeded | failed | cancelled => 3

def name : Status → String
  | requested => "requested"
  | claimed => "claimed"
  | running => "running"
  | succeeded => "succeeded"
  | failed => "failed"
  | cancelled => "cancelled"

theorem isOpen_iff {s : Status} : s.isOpen = true ↔ s.stage < 3 := by cases s <;> decide

theorem two_le_stage {s : Status} (h : s.isReport = true) : 2 ≤ s.stage := by
  cases s with
  | requested | claimed => cases h
  | running => exact Nat.le_refl 2
  | succeeded | failed | cancelled => exact Nat.le_succ 2

end Status

structure InstanceUpdateRequest where
  id : Id
  targetVersion : String
  fromVersion : String
  status : Status
  detail : Option String
  requestedById : Option Id
  requestedAt : Millis
  claimedAt : Option Millis
  finishedAt : Option Millis

/-- The table of the requests.  `won` is no part of the code: it lists the requests that a claim
was answered with. -/
structure Store where
  requests : Keyed InstanceUpdateRequest.id := .empty
  won : List Id := []

namespace Store

def rewrite (s : Store) (requestId : Id) (f : InstanceUpdateRequest → InstanceUpdateRequest)
    (hf : ∀ r, (f r).id = r.id) : Store where
  requests := s.requests.update (fun r ↦ if r.id = requestId then f r else r) fun r ↦ by
    split
    · exact hf r
    · rfl
  won := s.won

def opened (s : Store) : List InstanceUpdateRequest := s.requests.rows.filter (·.status.isOpen)

/-- The request currently in flight, if any: of several, the one that was made last. -/
def pending (s : Store) : Option InstanceUpdateRequest :=
  greatest (·.requestedAt) s.opened

theorem pending_eq_none {s : Store} : s.pending = none ↔ s.opened = [] := List.argmax_eq_none

/-- Whether the request with an id is one that can be claimed or withdrawn. -/
def isRequested (s : Store) (requestId : Id) : Bool :=
  (s.requests.find requestId).any (·.status = .requested)

end Store

/-! ## The calls -/

/-- A call of the service. -/
inductive Operation
  | /-- `request` -/
    request (targetVersion : String) (requestedById : Option Id)
  | /-- `claim` -/
    claim (requestId : Id)
  | /-- `reportStatus` -/
    reportStatus (requestId : Id) (status : Status) (detail : Option String)
  | /-- `cancel` -/
    cancel (requestId : Id) (detail : String)

inductive Call
  | called (op : Operation)
  | creating (version : String) (requestedById : Option Id)
  | writing (requestId : Id) (status : Status) (detail : Option String)
  | /-- Its conditional write has counted a row, which it reads to answer with it. -/
    reading (requestId : Id)

/-- What a step draws from the outside: the time, and a new id. -/
structure Draw where
  now : Millis
  newId : Id

section

variable (number : List Char → Nat) (current : String)

def checkVersion (targetVersion : String) : Except ApiError String := do
  let version ← normalizeVersion targetVersion
  require (version ≠ current) ⟨409, "This installation is already running " ++ version, none⟩
  -- An upgrade is all that can be asked for.
  require (isNewer number version current = true) ⟨400,
    if compareVersions number version current = none then
      "Cannot compare " ++ version ++ " with the running version (" ++ current ++
        "); request refused"
    else
      version ++ " is older than the running version (" ++ current ++ "). Downgrades are not " ++
        "requestable — roll back on the host with ./update-shellius.sh --rollback.", none⟩
  return version

/-- `request` as far as the creation: the version that a row is to be created for. -/
def request (s : Store) (targetVersion : String) : Except ApiError String := do
  let version ← checkVersion number current targetVersion
  match s.pending with
  | some existing =>
    throw ⟨409, "An update to " ++ existing.targetVersion ++ " is already " ++
      existing.status.name, none⟩
  | none => return version

def newRequest (version : String) (requestedById : Option Id) (d : Draw) :
    InstanceUpdateRequest where
  id := d.newId
  targetVersion := version
  fromVersion := current
  status := .requested
  detail := none
  requestedById := requestedById
  requestedAt := d.now
  claimedAt := none
  finishedAt := none

/-- The conditional write of `claim`, and whether it counted a row. -/
def claim (s : Store) (requestId : Id) (d : Draw) : Store × Bool :=
  if s.isRequested requestId then
    ({ s.rewrite requestId (fun r ↦ { r with status := .claimed, claimedAt := some d.now })
        fun _ ↦ rfl with won := s.won ++ [requestId] }, true)
  else (s, false)

/-- `reportStatus` as far as the writing: nothing to do, or the `detail` to write. -/
def reportStatus (s : Store) (requestId : Id) (status : Status) (detail : Option String) :
    Except ApiError (Option (Option String)) :=
  if status.isReport = false then .error ⟨400, "Unknown status '" ++ status.name ++ "'", none⟩
  else
    match s.requests.find requestId with
    | none => .error ⟨404, "Update request not found", none⟩
    | some row =>
      -- A helper retrying after a network blip must not reopen a finished request.
      if row.status.isTerminal then .ok none
      else
        .ok (some (match truthy detail with
          | some text => some (String.ofList (slice 4000 text.toList))
          | none => row.detail))

/-- What `reportStatus` makes of a row. -/
def reported (status : Status) (detail : Option String) (d : Draw) (r : InstanceUpdateRequest) :
    InstanceUpdateRequest :=
  { r with
    status := status
    detail := detail
    finishedAt := if status.isTerminal then some d.now else r.finishedAt }

/-- The conditional write of `cancel`, or its refusal. -/
def cancel (s : Store) (requestId : Id) (detail : String) (d : Draw) : Except ApiError Store :=
  if s.isRequested requestId then
    .ok (s.rewrite requestId
      (fun r ↦ { r with status := .cancelled, detail := some detail, finishedAt := some d.now })
      fun _ ↦ rfl)
  else
    .error ⟨409, "That request has already been picked up and cannot be cancelled here", none⟩

/-- The next database step of a call. -/
def act (s : Store) (k : Call) (d : Draw) : Option (Store × Option Call) :=
  match k with
  | .called (.request targetVersion requestedById) =>
    match request number current s targetVersion with
    | .error _ => some (s, none)
    | .ok version => some (s, some (.creating version requestedById))
  | .creating version requestedById =>
    (s.requests.insert? (newRequest current version requestedById d)).map fun requests ↦
      ({ s with requests }, none)
  | .called (.claim requestId) =>
    match claim s requestId d with
    | (s, true) => some (s, some (.reading requestId))
    | (s, false) => some (s, none)
  | .called (.reportStatus requestId status detail) =>
    match reportStatus s requestId status detail with
    | .error _ | .ok none => some (s, none)
    | .ok (some detail) => some (s, some (.writing requestId status detail))
  | .writing requestId status detail =>
    some (s.rewrite requestId (reported status detail d) fun _ ↦ rfl, none)
  | .called (.cancel requestId detail) =>
    match cancel s requestId detail d with
    | .error _ => some (s, none)
    | .ok s => some (s, some (.reading requestId))
  | .reading _ => some (s, none)

def program : Program Store Operation Call Draw Empty where
  start := .called
  act _ := act number current
  env _ d := nomatch d

end

end Shellius.Updates
