import Mathlib.Data.Finset.Card
import Mathlib.Data.Finset.Union
import Shellius.Collector.Fleet

/-!
# Rollouts of the collector

`jobs/collectorRollout.js` and `services/collectorUpdateService.js`, for one organization.  A tick
judges the attempts of the open rollout, and when they have gone well offers the version to more
hosts; a host answers by what it reports next.

There is one rollout of a version, so that it goes by its version.
-/

namespace Shellius.Collector

open Lib

structure Config where
  /-- `bucketFor`: the first bytes of a hash, as a number. -/
  bucketFor : Id → String → Nat
  /-- `VERIFY_GRACE_MS` -/
  verifyGraceMs : Int := 45 * 60 * 1000
  /-- `STEP_DWELL_MS` -/
  stepDwellMs : Int := 30 * 60 * 1000
  publicBaseUrl : String := ""
  /-- `Math.round(failed / judged * 100)` -/
  percentOf : Nat → Nat → Nat := fun failed judged ↦ (200 * failed + judged) / (2 * judged)

/-! ## Tables -/

inductive RolloutStatus
  | rolling | halted | complete | cancelled
deriving DecidableEq

def RolloutStatus.text : RolloutStatus → String
  | .rolling => "rolling"
  | .halted => "halted"
  | .complete => "complete"
  | .cancelled => "cancelled"

structure CollectorRollout where
  targetVersion : String
  status : RolloutStatus := .rolling
  percent : Nat := 0
  startedAt : Millis
  lastStepAt : Option Millis := none
  completedAt : Option Millis := none
  haltedReason : Option String := none

inductive AttemptStatus
  | offered | verified | rolledBack | failed | cancelled
deriving DecidableEq

structure CollectorUpdateAttempt where
  toVersion : String
  serverId : Id
  fromVersion : Option String
  status : AttemptStatus := .offered
  detail : Option String := none
  offeredAt : Millis
  reportedAt : Option Millis := none
  verifiedAt : Option Millis := none

/-- `@@unique([rolloutId, serverId])` -/
def CollectorUpdateAttempt.key (a : CollectorUpdateAttempt) : String × Id := (a.toVersion, a.serverId)

/-- The organization, and the release that is running.  The last two are no part of the code: the
offers that were ever made, and for each version the hosts that a step of its rollout counted. -/
structure State where
  now : Millis
  servers : Keyed Server.id := .empty
  snapshots : List HostSnapshot := []
  settings : Settings := {}
  /-- `POSTURE_COLLECTOR_VERSION` -/
  target : Option String
  rollouts : Keyed CollectorRollout.targetVersion := .empty
  attempts : Keyed CollectorUpdateAttempt.key := .empty
  offers : List (String × Id) := []
  counted : List (String × Id) := []

namespace State

variable (s : State)

def updateRollout (version : String) (f : CollectorRollout → CollectorRollout)
    (hf : ∀ r, (f r).targetVersion = r.targetVersion) : State :=
  { s with
    rollouts := s.rollouts.update (fun r ↦ if r.targetVersion = version then f r else r) fun r ↦ by
      split
      · exact hf r
      · rfl }

/-- Rewrite the attempts that pass a test. -/
def updateAttempts (p : CollectorUpdateAttempt → Bool)
    (f : CollectorUpdateAttempt → CollectorUpdateAttempt) (hf : ∀ a, (f a).key = a.key) : State :=
  { s with
    attempts := s.attempts.update (fun a ↦ if p a then f a else a) fun a ↦ by
      split
      · exact hf a
      · rfl }

end State

/-! ## Judging a step -/

def closeRollout (s : State) (version : String) (status : RolloutStatus) (reason : String) : State :=
  (s.updateRollout version
    (fun r ↦ { r with status, completedAt := some s.now, haltedReason := some reason })
    fun _ ↦ rfl).updateAttempts
      (fun a ↦ a.toVersion = version && a.status = .offered)
      (fun a ↦ { a with
        status := .cancelled
        detail := some s!"The rollout was {status.text} before this host reported back." })
      fun _ ↦ rfl

/-- The attempts of hosts that were taken out of service are withdrawn. -/
def withdraw (s : State) (version : String) : State :=
  s.updateAttempts
    (fun a ↦ a.toVersion = version && a.status = .offered &&
      (s.servers.find a.serverId).any fun server ↦ !server.isActive)
    (fun a ↦ { a with
      status := .cancelled
      detail := some "The server was deactivated while the update was outstanding." })
    fun _ ↦ rfl

def failSilentAttempts (cfg : Config) (s : State) (version : String) : State :=
  s.updateAttempts
    (fun a ↦ a.toVersion = version && a.status = .offered &&
      a.offeredAt < s.now - cfg.verifyGraceMs && a.reportedAt.isNone)
    (fun a ↦ { a with
      status := .failed
      detail := some
        "No posture report at all after the update was offered; the host went silent." })
    fun _ ↦ rfl

structure Health where
  verified : Nat
  failed : Nat
  pending : Nat

def Health.judged (h : Health) : Nat := h.verified + h.failed

def stepHealth (s : State) (version : String) : Health :=
  let count (status : AttemptStatus) :=
    s.attempts.rows.countP fun a ↦ a.toVersion = version && a.status = status
  { verified := count .verified
    failed := count .failed + count .rolledBack
    pending := count .offered }

/-- `MIN_FAILURES_TO_HALT` and `MAX_FAILURE_RATE`: at least two, and more than a fifth. -/
def Health.overLimit (h : Health) : Bool := 2 ≤ h.failed && h.judged < 5 * h.failed

/-! ## Widening -/

/-- `PERCENT_STEPS` -/
def percentSteps : List Nat := [10, 25, 50, 100]

def nextPercent (percent : Nat) : Option Nat := percentSteps.find? (percent < ·)

def cohortSize (total percent : Nat) : Nat :=
  if total = 0 then 0
  else if percent = 0 then 0
  else if 100 ≤ percent then total
  else max 1 ((total * percent + 99) / 100)

def ordered (cfg : Config) (s : State) (version : String) : List Candidate :=
  sortOn (fun c ↦ cfg.bucketFor c.server.id version)
    (candidatesFor s.servers s.snapshots s.settings s.now version)

/-- The hosts that a rollout has an attempt of. -/
def seen (s : State) (version : String) : List Id :=
  (s.attempts.rows.filter (·.toVersion = version)).map (·.serverId)

/-- A host is offered a version, unless it already was. -/
def offer (version : String) (s : State) (c : Candidate) : State :=
  match s.attempts.insert?
      { toVersion := version
        serverId := c.server.id
        fromVersion := c.currentVersion
        offeredAt := s.now } with
  | some attempts => { s with attempts, offers := s.offers ++ [(version, c.server.id)] }
  | none => s

def nextStep (settings : Settings) (rollout : CollectorRollout) : Option Nat :=
  if rollout.percent = 0 then
    some (min (if settings.collectorCanaryPercent = 0 then 10 else settings.collectorCanaryPercent)
      100)
  else nextPercent rollout.percent

/-- What a tick did. -/
inductive Action
  | cancelled
  | disabled
  | noTarget
  | nothingToDo
  | previouslyEnded (status : RolloutStatus)
  | halted (health : Health)
  | waiting (health : Health)
  | dwelling (health : Health)
  | complete
  | stepped (percent offered : Nat)

def cohort (cfg : Config) (s : State) (version : String) (step : Nat) : List Candidate :=
  let ordered := ordered cfg s version
  let seen := (seen s version).length
  ordered.take (cohortSize (ordered.length + seen) step - seen)

/-- The hosts that a step counts. -/
def countFleet (cfg : Config) (s : State) (version : String) : State :=
  { s with counted := s.counted ++ (ordered cfg s version).map fun c ↦ (version, c.server.id) }

def offerAll (cfg : Config) (s : State) (version : String) (step : Nat) : State :=
  (cohort cfg s version step).foldl (offer version) (countFleet cfg s version)

/-- The rollout has reached everybody it could. -/
def completeRollout (s : State) (version : String) (percent : Option Nat) : State :=
  s.updateRollout version
    (fun r ↦ { r with
      status := .complete, percent := percent.getD r.percent, completedAt := some s.now })
    fun _ ↦ rfl

/-- The version is offered, and the step is written down. -/
def stepTo (cfg : Config) (s : State) (version : String) (step : Nat) : State :=
  (offerAll cfg s version step).updateRollout version
    (fun r ↦ { r with percent := step, lastStepAt := some s.now }) fun _ ↦ rfl

/-- `advanceOrg`, once a step has gone well. -/
def widen (cfg : Config) (s : State) (rollout : CollectorRollout) : State × Action :=
  let version := rollout.targetVersion
  if ordered cfg s version = [] ∧ seen s version ≠ [] then
    (completeRollout s version (some 100), .complete)
  else
    match nextStep s.settings rollout with
    | none => (completeRollout s version none, .complete)
    | some step =>
      let s' := stepTo cfg s version step
      (s', .stepped step (s'.offers.length - s.offers.length))

/-! ## A tick -/

/-- The attempts of a rollout once those that cannot go well any more are judged. -/
def judged (cfg : Config) (s : State) (version : String) : State :=
  failSilentAttempts cfg (withdraw s version) version

/-- Whether the last step has settled. -/
def dwelt (cfg : Config) (now : Millis) (rollout : CollectorRollout) : Bool :=
  rollout.lastStepAt.all fun t ↦ cfg.stepDwellMs ≤ now - t

def haltedReason (cfg : Config) (health : Health) (version : String) : String :=
  s!"{health.failed} of {health.judged} hosts did not come back healthy on {version} " ++
    s!"({cfg.percentOf health.failed health.judged}%). Rollout stopped; " ++
    "no further hosts will be offered the update."

/-- `advanceOrg`, with a rollout of the version that is shipped. -/
def advanceRollout (cfg : Config) (s : State) (rollout : CollectorRollout) : State × Action :=
  let version := rollout.targetVersion
  let s := judged cfg s version
  let health := stepHealth s version
  if health.overLimit then
    (closeRollout s version .halted (haltedReason cfg health version), .halted health)
  else if 0 < health.pending then (s, .waiting health)
  else if !dwelt cfg s.now rollout then (s, .dwelling health)
  else widen cfg s rollout

def opened (s : State) : Option CollectorRollout := s.rollouts.rows.find? (·.status = .rolling)

def advanceOrg (cfg : Config) (s : State) : State × Action :=
  if s.settings.collectorAutoUpdate = false then
    match opened s with
    | some rollout =>
      (closeRollout s rollout.targetVersion .cancelled
        "Automatic collector updates were turned off.", .cancelled)
    | none => (s, .disabled)
  else
    match s.target with
    | none => (s, .noTarget)
    | some target =>
      match opened s with
      | some rollout =>
        if rollout.targetVersion ≠ target then
          (closeRollout s rollout.targetVersion .cancelled
            (s!"This installation now ships collector {target}, " ++
              s!"not {rollout.targetVersion}."), .cancelled)
        else advanceRollout cfg s rollout
      | none =>
        if candidatesFor s.servers s.snapshots s.settings s.now target = [] then
          (s, .nothingToDo)
        else
          match h : s.rollouts.find target with
          | some previous => (s, .previouslyEnded previous.status)
          | none =>
            let rollout := { targetVersion := target, startedAt := s.now }
            advanceRollout cfg
              { s with rollouts := s.rollouts.insert rollout (Keyed.find_eq_none.mp h) }
              rollout

/-! ## What a host sees and says -/

structure Offer where
  version : String
  url : String

def offerFor (cfg : Config) (s : State) (serverId : Id) : Option Offer :=
  (greatest (·.offeredAt) (s.attempts.rows.filter fun a ↦
      a.serverId = serverId && a.status = .offered &&
        (s.rollouts.find a.toVersion).any (·.status = .rolling))).bind fun a ↦
    if s.target = some a.toVersion then
      some ⟨a.toVersion, cfg.publicBaseUrl ++ "/api/hosts/collector-script"⟩
    else none

def reported (cfg : Config) (now : Millis) (reportedVersion : Option String)
    (a : CollectorUpdateAttempt) : CollectorUpdateAttempt :=
  let version := (truthy reportedVersion).getD "an unknown version"
  if (truthy reportedVersion).isSome && !isOlderCollector reportedVersion (some a.toVersion) then
    { a with status := .verified, reportedAt := some now, verifiedAt := some now, detail := none }
  else if now - a.offeredAt < cfg.verifyGraceMs then { a with reportedAt := some now }
  else
    { a with
      status := .rolledBack
      reportedAt := some now
      detail := some
        s!"Still reporting {version} after the grace period; the host appears to have reverted." }

theorem reported_key (cfg : Config) (now : Millis) (reportedVersion : Option String)
    (a : CollectorUpdateAttempt) : (reported cfg now reportedVersion a).key = a.key := by
  unfold reported
  split
  · rfl
  · split
    · rfl
    · rfl

def recordReportedVersion (cfg : Config) (s : State) (serverId : Id)
    (reportedVersion : Option String) : State :=
  match greatest (·.offeredAt)
      (s.attempts.rows.filter fun a ↦ a.serverId = serverId && a.status = .offered) with
  | none => s
  | some attempt =>
    s.updateAttempts (·.key = attempt.key) (reported cfg s.now reportedVersion)
      (reported_key cfg s.now reportedVersion)

/-! ## Runs -/

inductive Event
  | host (server : Server)
  | settings (settings : Settings)
  | ship (target : Option String)
  | wait (now : Millis)
  | report (serverId : Id) (collectorOk : Bool) (agentVersion : Option String)
  | /-- `advanceOrg` -/
    tick (now : Millis)

def State.at (s : State) (now : Millis) : State := { s with now }

def step (cfg : Config) (s : State) : Event → Option State
  | .host server => some { s with servers := s.servers.upsert server }
  | .settings settings => some { s with settings }
  | .ship target => some { s with target }
  | .wait now => if s.now ≤ now then some (s.at now) else none
  | .report serverId collectorOk agentVersion =>
    if (s.servers.find serverId).isSome then
      let snapshots := s.snapshots ++ [⟨serverId, s.now, collectorOk, agentVersion⟩]
      some (recordReportedVersion cfg { s with snapshots } serverId agentVersion)
    else none
  | .tick now => if s.now ≤ now then some (advanceOrg cfg (s.at now)).1 else none

/-! ## What is asked of the rollouts -/

def offeredTo (s : State) (version : String) : Finset Id :=
  ((s.offers.filter (·.1 = version)).map (·.2)).toFinset

/-- The hosts that were eligible at a step of the rollout of a version, or were offered it. -/
def fleet (s : State) (version : String) : Finset Id :=
  ((s.counted.filter (·.1 = version)).map (·.2)).toFinset ∪ offeredTo s version

/-- What holds at every moment. -/
structure Announced (cfg : Config) (s : State) : Prop where
  /-- A rollout has reached no more hosts than its percentage is of the fleet. -/
  reached : ∀ r ∈ s.rollouts, (offeredTo s r.targetVersion).card ≤
    cohortSize (fleet s r.targetVersion).card r.percent
  once : s.offers.Nodup
  /-- What a host is told to install is on offer to it in a rollout that is going on. -/
  served : ∀ serverId o, offerFor cfg s serverId = some o →
    (o.version, serverId) ∈ s.offers ∧
      ∃ r ∈ s.rollouts, r.targetVersion = o.version ∧ r.status = .rolling

structure OnEvidence (cfg : Config) (s : State) (e : Event) (s' : State) : Prop where
  /-- A rollout grows at a tick, when no attempt is outstanding, the last step has settled and not
  too many have failed. -/
  grown : ∀ r' ∈ s'.rollouts, 0 < r'.percent →
    (∀ r ∈ s.rollouts, r.targetVersion = r'.targetVersion → r.percent < r'.percent) →
    ∃ now, e = .tick now ∧
      (∀ r ∈ s.rollouts, r.targetVersion = r'.targetVersion → dwelt cfg now r = true) ∧
      (stepHealth (judged cfg (s.at now) r'.targetVersion) r'.targetVersion).pending = 0 ∧
      (stepHealth (judged cfg (s.at now) r'.targetVersion) r'.targetVersion).overLimit = false
  /-- A rollout that has ended stays as it is, and offers nothing. -/
  ended : ∀ r ∈ s.rollouts, r.status ≠ .rolling →
    r ∈ s'.rollouts ∧ offeredTo s' r.targetVersion = offeredTo s r.targetVersion

end Shellius.Collector
