import Shellius.Collector.Fleet
import Shellius.Posture.Views

/-!
# Servers in groups

`GET /api/servers` lists the servers that pass the filters, and `GET /api/servers/groups` counts
them by some of their columns, as a tree.  A group is opened through the list, with the values of
the group as filters.

`serverService.js` and `serverAgentStatus.js`.  A query parameter is a string.
-/

namespace Shellius.Servers

open Lib Collector
open Posture.Views (noValue valueKey)

/-! ## Servers -/

inductive HealthStatus where
  | healthy | unhealthy | unknown | maintenance

def HealthStatus.key : HealthStatus → String
  | .healthy => "healthy"
  | .unhealthy => "unhealthy"
  | .unknown => "unknown"
  | .maintenance => "maintenance"

def protocolKey : ServerProtocol → String
  | .ssh => "ssh"
  | .rdp => "rdp"
  | .both => "both"

structure ListedServer extends Collector.Server where
  orgId : Id
  customerId : Id
  hostname : String
  displayName : Option String := none
  ipAddress : String
  environment : Environment := .dev
  healthStatus : HealthStatus := .unknown
  cloudProvider : Option String := none
  lastHealthCheck : Option Millis := none
  authMode : ServerAuthMode := .certificate
  provisionStatus : String := "pending"
  agentId : Option Id := none
  agentLastSeen : Option Millis := none
  agentTokenHash : Option String := none

/-- What the list reads: all servers, and of one organization its customers, snapshots and
settings. -/
structure Inventory where
  servers : Keyed (fun s : ListedServer ↦ s.id)
  customers : List (Id × String) := []
  snapshots : List HostSnapshot := []
  settings : Collector.Settings := {}
  collectorVersion : Option String := none

/-- What is not the program's: `contains` of the database in the mode `insensitive`, the instant of
a date, upper and lower case, `localeCompare`, and the order of the list. -/
structure Runtime where
  contains : String → String → Bool
  parseDate : String → Option Millis
  toUpper : String → String
  toLower : String → String
  localeCompare : String → String → Ordering
  orderBy : Option String → Bool → List ListedServer → List ListedServer
  orderBy_perm : ∀ sortBy desc rows, (orderBy sortBy desc rows).Perm rows

/-! ## Statuses -/

/-- `SSH_TRUST_STATES` -/
inductive SshTrust where
  | healthy | legacyToken | stale | noHeartbeat | installing | failed | notInstalled
  | identityAuth | notApplicable

def SshTrust.key : SshTrust → String
  | .healthy => "healthy"
  | .legacyToken => "legacy_token"
  | .stale => "stale"
  | .noHeartbeat => "no_heartbeat"
  | .installing => "installing"
  | .failed => "failed"
  | .notInstalled => "not_installed"
  | .identityAuth => "identity_auth"
  | .notApplicable => "not_applicable"

def SshTrust.label : SshTrust → String
  | .healthy => "Healthy"
  | .legacyToken => "Legacy token"
  | .stale => "Agent silent"
  | .noHeartbeat => "No heartbeat"
  | .installing => "Installing"
  | .failed => "Install failed"
  | .notInstalled => "Not installed"
  | .identityAuth => "Identity auth"
  | .notApplicable => "Not applicable"

/-- The states of `SSH_TRUST_STATES`, in its order. -/
def sshTrustStates : List SshTrust :=
  [.healthy, .legacyToken, .stale, .noHeartbeat, .installing, .failed, .notInstalled,
    .identityAuth, .notApplicable]

/-- `HEARTBEAT_STALE_MS` -/
def heartbeatStaleMs : Millis := 10 * 60 * 1000

def isBootstrapped (s : ListedServer) : Bool :=
  s.provisionStatus = "provisioned" || (truthy s.agentId).isSome

def sshTrustStatus (s : ListedServer) (now : Millis) : SshTrust :=
  if !canInstallOn s.toServer then .notApplicable
  else if s.provisionStatus = "provisioning" then .installing
  else if !isBootstrapped s then
    if s.provisionStatus = "failed" then .failed
    else if s.authMode = .credential then .identityAuth
    else .notInstalled
  else match s.agentLastSeen with
    | none => .noHeartbeat
    | some seen =>
      if now - seen > heartbeatStaleMs then .stale
      else if (truthy s.agentTokenHash).isNone then .legacyToken
      else .healthy

/-- `COLLECTOR_STATES` of the list, where an outdated collector has a state of its own. -/
inductive CollectorStatus where
  | outdated
  | state (state : CollectorState)

def CollectorStatus.key : CollectorStatus → String
  | .outdated => "outdated"
  | .state .reporting => "reporting"
  | .state .degraded => "degraded"
  | .state .awaitingReport => "awaiting_report"
  | .state .rejected => "rejected"
  | .state .stale => "stale"
  | .state .notInstalled => "not_installed"
  | .state .notApplicable => "not_applicable"

/-- `COLLECTOR_LABELS` -/
def CollectorStatus.label : CollectorStatus → String
  | .outdated => "Update available"
  | .state .reporting => "Reporting"
  | .state .degraded => "Degraded"
  | .state .awaitingReport => "Waiting for report"
  | .state .rejected => "Reports refused"
  | .state .stale => "Stopped reporting"
  | .state .notInstalled => "Not installed"
  | .state .notApplicable => "Not applicable"

/-- The states of `COLLECTOR_STATES`, in its order. -/
def collectorStates : List CollectorStatus :=
  [.state .reporting, .outdated, .state .degraded, .state .awaitingReport, .state .rejected,
    .state .stale, .state .notInstalled, .state .notApplicable]

section

variable (rt : Runtime) (inv : Inventory) (orgId : Id) (scope : Scope) (now : Millis)

/-- `collectorStatus`, of the newest snapshot of the server. -/
def collectorStatus (s : ListedServer) : CollectorStatus :=
  let latest := latestSnapshot inv.snapshots s.id
  let state := classifyCollector s.toServer latest inv.settings now
  if state = .reporting ∧ isOlderCollector (latest.bind (·.agentVersion)) inv.collectorVersion then
    .outdated
  else .state state

/-! ## Dimensions -/

/-- `SERVER_GROUP_DIMS`, which are also the filters by a value. -/
inductive Dim where
  | customer | environment | health | sshTrust | collector | protocol | osType | cloudProvider
  | active
deriving DecidableEq

def Dim.key : Dim → String
  | .customer => "customer"
  | .environment => "environment"
  | .health => "health"
  | .sshTrust => "sshTrust"
  | .collector => "collector"
  | .protocol => "protocol"
  | .osType => "osType"
  | .cloudProvider => "cloudProvider"
  | .active => "active"

def dims : List Dim :=
  [.customer, .environment, .health, .sshTrust, .collector, .protocol, .osType, .cloudProvider,
    .active]

/-- Whether a dimension is a status, which is not stored. -/
def Dim.computed : Dim → Bool
  | .sshTrust | .collector => true
  | _ => false

def Dim.text (s : ListedServer) : Dim → Option String
  | .customer => some s.customerId
  | .environment => some s.environment.key
  | .health => some s.healthStatus.key
  | .sshTrust => some (sshTrustStatus s now).key
  | .collector => some (collectorStatus inv now s).key
  | .protocol => some (protocolKey s.protocol)
  | .osType => s.osType
  | .cloudProvider => s.cloudProvider
  | .active => some (if s.isActive then "true" else "false")

/-! ## Filters -/

/-- The filters of a query: by a value of a dimension, by the last check, and a search. -/
structure ServerFilters where
  value : Dim → Option String := fun _ ↦ none
  healthCheckFrom : Option String := none
  healthCheckTo : Option String := none
  search : Option String := none

/-- The names of an enumeration; a filter by another name is refused by the database. -/
def Dim.names : Dim → Option (List String)
  | .environment => some ["demo", "dev", "staging", "prod"]
  | .health => some ["healthy", "unhealthy", "unknown", "maintenance"]
  | .protocol => some ["ssh", "rdp", "both"]
  | _ => none

/-- Whether the database accepts a filter. -/
def Dim.accepts (v : Option String) (d : Dim) : Bool :=
  (truthy v).all fun v ↦ v = noValue || d.names.all fun names ↦ v ∈ names

/-- A column that is never empty: `NONE` matches nothing. -/
def requiredWhere (v : Option String) (c : String) : Bool :=
  (truthy v).all fun v ↦ v ≠ noValue && c = v

/-- A nullable text column: `NONE` is null or empty. -/
def nullableWhere (v : Option String) (c : Option String) : Bool :=
  (truthy v).all fun v ↦ if v = noValue then c = none || c = some "" else c = some v

/-- Whether the server is in use: any other value counts as false. -/
def activeWhere (v : Option String) (isActive : Bool) : Bool :=
  (truthy v).all fun v ↦ v ≠ noValue && isActive = decide (v = "true")

/-- A status: `NONE` matches nothing, and a name that is none of a status is not looked at. -/
def statusWhere (names : List String) (v : Option String) (c : String) : Bool :=
  match v with
  | some v => if v = noValue then false else if v ∈ names then c = v else true
  | none => true

/-- The filter by a value of a dimension. -/
def Dim.where (s : ListedServer) (v : Option String) : Dim → Bool
  | .customer => requiredWhere v s.customerId
  | .environment => requiredWhere v s.environment.key
  | .health => requiredWhere v s.healthStatus.key
  | .protocol => requiredWhere v (protocolKey s.protocol)
  | .osType => nullableWhere v s.osType
  | .cloudProvider => nullableWhere v s.cloudProvider
  | .active => activeWhere v s.isActive
  | .sshTrust => statusWhere (sshTrustStates.map SshTrust.key) v (sshTrustStatus s now).key
  | .collector =>
    statusWhere (collectorStates.map CollectorStatus.key) v (collectorStatus inv now s).key

/-- A day without a time. -/
def isBareDay : List Char → Bool
  | [a, b, c, d, '-', e, f, '-', g, h] => [a, b, c, d, e, f, g, h].all isDecimal
  | _ => false

def endOfDayInclusive (value : String) : Option Millis :=
  let s := trim value
  if isBareDay s.toList then rt.parseDate (s ++ "T23:59:59.999Z") else rt.parseDate s

/-- The bounds of the last check; a date that is none is refused by the database. -/
def checkedWhere (healthCheckFrom healthCheckTo : Option String) :
    Option (Option Millis → Bool) := do
  let lower ← (truthy healthCheckFrom).elim (some none) fun s ↦ (rt.parseDate s).map some
  let upper ← (truthy healthCheckTo).elim (some none) fun s ↦ (endOfDayInclusive rt s).map some
  pure fun lastHealthCheck ↦
    lower.all (fun t ↦ lastHealthCheck.any (t ≤ ·)) && upper.all fun t ↦ lastHealthCheck.any (· ≤ t)

/-- The search in names and addresses. -/
def searchWhere (search : Option String) (s : ListedServer) : Bool :=
  (truthy search).all fun needle ↦ rt.contains s.hostname needle ||
    s.displayName.any (rt.contains · needle) || rt.contains s.ipAddress needle

/-- `resolveServerWhere`, if the database accepts the filters. -/
def resolveServerWhere (q : ServerFilters) : Option (ListedServer → Bool) := do
  let checked ← checkedWhere rt q.healthCheckFrom q.healthCheckTo
  if dims.all fun d ↦ d.accepts (q.value d) then
    pure fun s ↦ s.orgId = orgId && scope.admits s.customerId &&
      (dims.all fun d ↦ d.where inv now s (q.value d)) && checked s.lastHealthCheck &&
      searchWhere rt q.search s
  else none

/-! ## The list -/

def passing (p : ListedServer → Bool) : List ListedServer := inv.servers.rows.filter p

/-- What `listServers` returns. -/
structure ServerPage where
  items : List ListedServer
  total : Nat
  page : Nat
  pageSize : Nat

/-- `listServers`; a page or a size that is zero stands for one that is not given. -/
def listServers (q : ServerFilters) (sortBy : Option String) (desc : Bool) (page pageSize : Nat) :
    Option ServerPage := do
  let p ← resolveServerWhere rt inv orgId scope now q
  let page := if page = 0 then 1 else page
  let pageSize := min (if pageSize = 0 then 25 else pageSize) 100
  pure ⟨pageOf pageSize page (rt.orderBy sortBy desc (passing inv p)), (passing inv p).length, page,
    pageSize⟩

/-! ## The groups -/

/-- `parseGroupBy`, of the keys that a request lists: those that are known, without repeats, and
three at most. -/
def parseGroupBy (list : List String) : List Dim :=
  ((list.filterMap fun k ↦ dims.find? fun d ↦ d.key = trim k).reverse.dedup.reverse).take 3

def columns (keys : List Dim) (s : ListedServer) : List (Dim × Option String) :=
  keys.map fun d ↦ (d, d.text inv now s)

def envLabels : List (String × String) :=
  [("prod", "Production"), ("staging", "Staging"), ("dev", "Dev"), ("demo", "Demo")]

def healthLabels : List (String × String) :=
  [("healthy", "Healthy"), ("unhealthy", "Unhealthy"), ("unknown", "Unknown"),
    ("maintenance", "Maintenance")]

def protocolLabels : List (String × String) :=
  [("ssh", "SSH"), ("rdp", "RDP"), ("both", "SSH + RDP")]

def cloudLabels : List (String × String) := [("aws", "AWS"), ("azure", "Azure"), ("gcp", "GCP")]

def titleCase (v : String) : String :=
  rt.toUpper (.ofList (v.toList.take 1)) ++ .ofList (v.toList.drop 1)

def labelFor (d : Dim) (v : String) : String :=
  match d with
  | .customer =>
    if v = noValue then "No customer"
    else (truthy (inv.customers.lookup v)).getD "Unknown customer"
  | .sshTrust =>
    if v = noValue then "None"
    else ((sshTrustStates.find? (·.key = v)).map SshTrust.label).getD v
  | .collector =>
    if v = noValue then "None"
    else ((collectorStates.find? (·.key = v)).map CollectorStatus.label).getD v
  | .environment => (envLabels.lookup v).getD v
  | .health => (healthLabels.lookup v).getD v
  | .protocol => (protocolLabels.lookup v).getD v
  | .osType => if v = noValue then "No OS reported" else titleCase rt v
  | .cloudProvider =>
    if v = noValue then "Not cloud-discovered" else (cloudLabels.lookup (rt.toLower v)).getD v
  | .active => if v = "true" then "Active" else if v = "false" then "Inactive" else "None"

/-- The fixed order of the values of a dimension. -/
def Dim.order : Dim → List String
  | .environment => ["prod", "staging", "dev", "demo"]
  | .health => ["unhealthy", "maintenance", "unknown", "healthy"]
  | .sshTrust => sshTrustStates.map SshTrust.key
  | .collector => collectorStates.map CollectorStatus.key
  | .protocol => ["ssh", "rdp", "both"]
  | .active => ["true", "false"]
  | _ => []

/-- The place of a value in the order of its dimension; what has none comes after, and what is
empty last. -/
def Dim.rank (v : String) (d : Dim) : Nat :=
  if v = noValue then d.order.length + 1 else d.order.idxOf v

/-- The order of the groups of a level. -/
def comesBefore (d : Dim) (a b : Node Dim String) : Bool :=
  if d.rank a.value ≠ d.rank b.value then d.rank a.value < d.rank b.value
  else if a.count ≠ b.count then b.count < a.count
  else rt.localeCompare a.label b.label ≠ .gt

def serverGrouping : Grouping (List (Dim × Option String)) Dim String where
  value d c := valueKey (c.lookup d).join
  label := labelFor rt inv
  before := comesBefore rt

/-- The rows that are counted: each server if a status is asked for, else each combination of
columns with the number of servers that have it. -/
def countedRows (keys : List Dim) (servers : List ListedServer) :
    List (List (Dim × Option String) × Nat) :=
  if keys.any Dim.computed then servers.map fun s ↦ (columns inv now keys s, 1)
  else tally (servers.map (columns inv now keys))

def listServerGroups (q : ServerFilters) (groupBy : List String) :
    Option (List (Node Dim String)) :=
  let keys := parseGroupBy groupBy
  if keys = [] then some []
  else (resolveServerWhere rt inv orgId scope now q).map fun p ↦
    (serverGrouping rt inv).level keys (countedRows inv now keys (passing inv p))

end

def ServerFilters.withValue (q : ServerFilters) (s : Dim × String) : ServerFilters :=
  { q with value := Function.update q.value s.1 (some s.2) }

end Shellius.Servers
