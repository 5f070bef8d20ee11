import Mathlib.Data.List.SplitOn
import Shellius.Lib.Keyed
import Shellius.Lib.Select
import Shellius.Net
import Shellius.Schema
import Shellius.Text

/-!
# The fleet of an organization

`utils/postureCollectorVersion.js`, `services/postureCollectorState.js` and
`collectorUpdateService.candidatesFor`: which hosts have a collector that works and is older than
the one this installation ships.

Times are never the epoch, which JavaScript takes for absent, and the numbers of a version are
small enough for a double.
-/

namespace Shellius.Collector

open Lib

/-! ## Versions -/

/-- `parseInt(n, 10) || 0`, of a part of a version, which has no sign. -/
def versionNumber (part : List Char) : Nat :=
  decimalValue ((part.dropWhile isSpace).takeWhile isDecimal)

def versionNumbers (version : String) : List Nat :=
  (version.toList.splitOnP fun c ↦ c = '.' || c = '+' || c = '-').map versionNumber

/-- Whether one list of numbers is before another, where what is missing counts as zero. -/
def before : List Nat → List Nat → Bool
  | [], bs => bs.any (0 < ·)
  | _ :: _, [] => false
  | a :: as, b :: bs => if a = b then before as bs else decide (a < b)

/-- `isOlderCollector`: an unknown version counts as older. -/
def isOlderCollector (current : Option String) (latest : Option String) : Bool :=
  match truthy latest, truthy current with
  | none, _ => false
  | some _, none => true
  | some latest, some current => before (versionNumbers current) (versionNumbers latest)

/-! ## Hosts -/

structure Server where
  id : Id
  osType : Option String := none
  protocol : ServerProtocol := .ssh
  isActive : Bool := true
  postureRejectedAt : Option Millis := none
  postureInstalledAt : Option Millis := none

structure HostSnapshot where
  serverId : Id
  receivedAt : Millis
  collectorOk : Bool := true
  agentVersion : Option String

structure Settings where
  collectorAutoUpdate : Bool := false
  collectorCanaryPercent : Nat := 10
  collectIntervalSeconds : Nat := 300

def canInstallOn (server : Server) : Bool :=
  server.osType ≠ some "windows" && (server.protocol = .ssh || server.protocol = .both)

/-- `COLLECTOR_STATES` -/
inductive CollectorState
  | notApplicable | notInstalled | rejected | awaitingReport | stale | degraded | reporting
deriving DecidableEq

def staleThresholdMs (settings : Settings) : Millis :=
  3 * (if settings.collectIntervalSeconds = 0 then 300 else settings.collectIntervalSeconds) * 1000

/-- The newest snapshot of a host, as `latestSnapshots` has it. -/
def latestSnapshot (snapshots : List HostSnapshot) (serverId : Id) : Option HostSnapshot :=
  greatest (·.receivedAt) (snapshots.filter (·.serverId = serverId))

def classifyCollector (server : Server) (latest : Option HostSnapshot) (settings : Settings)
    (now : Millis) : CollectorState :=
  let threshold := staleThresholdMs settings
  let receivedAt := latest.map (·.receivedAt)
  if !canInstallOn server then .notApplicable
  else
    match server.postureRejectedAt.filter fun rejectedAt ↦
        receivedAt.all (· < rejectedAt) && server.postureInstalledAt.all (· < rejectedAt) with
    | some rejectedAt =>
      if now - rejectedAt > threshold then
        if receivedAt.isSome then .stale else .notInstalled
      else .rejected
    | none =>
      match server.postureInstalledAt.filter fun installedAt ↦
          receivedAt.all (· < installedAt) with
      | some installedAt => if now - installedAt ≤ threshold then .awaitingReport else .stale
      | none =>
        match latest with
        | none => .notInstalled
        | some latest =>
          if now - latest.receivedAt > threshold then .stale
          else if latest.collectorOk then .reporting
          else .degraded

/-- A host that could take an update right now. -/
structure Candidate where
  server : Server
  currentVersion : Option String

def candidate (snapshots : List HostSnapshot) (settings : Settings) (now : Millis)
    (targetVersion : String) (server : Server) : Option Candidate :=
  (latestSnapshot snapshots server.id).bind fun latest ↦
    match classifyCollector server (some latest) settings now with
    | .reporting | .degraded =>
      if isOlderCollector latest.agentVersion (some targetVersion) then
        some ⟨server, truthy latest.agentVersion⟩
      else none
    | _ => none

def candidatesFor (servers : Keyed Server.id) (snapshots : List HostSnapshot) (settings : Settings)
    (now : Millis) (targetVersion : String) : List Candidate :=
  (servers.rows.filter fun server ↦ server.isActive && canInstallOn server).filterMap
    (candidate snapshots settings now targetVersion)

section

variable {servers : Keyed Server.id} {snapshots : List HostSnapshot} {settings : Settings}
  {now : Millis} {targetVersion : String} {server : Server} {c : Candidate}

theorem server_of_candidate (h : candidate snapshots settings now targetVersion server = some c) :
    c.server = server := by
  obtain ⟨latest, -, h⟩ := Option.bind_eq_some_iff.mp h
  split at h
  · split at h
    · rw [← Option.some.inj h]
    · cases h
  · split at h
    · rw [← Option.some.inj h]
    · cases h
  · cases h

theorem nodup_candidatesFor :
    ((candidatesFor servers snapshots settings now targetVersion).map (·.server.id)).Nodup := by
  have hkept : ((servers.rows.filter fun server ↦ server.isActive && canInstallOn server).map
      Server.id).Nodup := servers.nodup.sublist (List.filter_sublist.map _)
  refine hkept.sublist (sublist_map_filterMap (fun server c h ↦ ?_) _)
  rw [server_of_candidate h]

end

end Shellius.Collector
