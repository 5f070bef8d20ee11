import Mathlib.Data.List.TakeWhile
import Shellius.Lib.Grouping
import Shellius.Posture.Alerts

/-!
# Views of the findings

`postureQueryService` shows the findings of an organization as a list, as counts over the list and
as a tree of groups; `postureExportService` writes them to a file.  Each of the four has its own
query.
-/

namespace Shellius.Posture.Views

open Lib Alerts

/-! ## What is stored -/

/-- `Server`, with whether it is in use. -/
structure FleetServer extends HostServer where
  isActive : Bool := true

/-- `Customer`, with its name. -/
structure NamedCustomer extends Customer where
  name : String

/-- What the views read.  A finding is written by `ingest`, for the server that reports and with the
organization of the server; a port in it comes with a protocol (`placed_run`). -/
structure Fleet where
  servers : Keyed (fun s : FleetServer ↦ s.id)
  customers : Keyed (fun c : NamedCustomer ↦ c.id) := .empty
  findings : Keyed FindingRow.place
  host_of : ∀ f ∈ findings, ∃ s ∈ servers, s.id = f.serverId ∧ s.orgId = f.orgId
  proto_of : ∀ f ∈ findings, f.Placed
  id_ne : ∀ s ∈ servers, s.id ≠ "" ∧ s.customerId ≠ ""

/-- What is not the program's: `contains` of the database in the mode `insensitive`, the order of
rows that compare alike, `Number` where it is a whole number, and `localeCompare`. -/
structure Runtime where
  contains : String → String → Bool
  orderBy : (FindingRow → FindingRow → Bool) → List FindingRow → List FindingRow
  orderBy_perm : ∀ before rows, (orderBy before rows).Perm rows
  number : String → Option Int
  localeCompare : String → String → Ordering

/-! ## Filters -/

/-- `NONE` -/
def noValue : String := "__none__"

/-- The filters of `getSummary`. -/
structure SummaryQuery where
  customerId : Option Id := none
  environment : Option String := none
  serverId : Option Id := none
  code : Option String := none
  lastSeenFrom : Option Millis := none
  lastSeenTo : Option Millis := none
  q : Option String := none

/-- The filters of `buildFindingsWhere`. -/
structure BaseQuery extends SummaryQuery where
  port : Option String := none

/-- The filters that the page of the findings offers; the route reads the severity in either case. -/
structure Filters extends BaseQuery where
  severity : Option Severity := none

/-- A filter, unless it is left out or empty. -/
def given (filter : Option String) (p : String → Bool) : Bool := (truthy filter).all p

@[simp] theorem given_none (p : String → Bool) : given none p = true := rfl

theorem given_some {s : String} (h : s ≠ "") (p : String → Bool) : given (some s) p = p s := by
  rw [given, truthy, if_neg h]
  rfl

section

variable (rt : Runtime) (db : Fleet)

def related (f : FindingRow) (p : FleetServer → Bool) : Bool := (db.servers.find f.serverId).any p

def findingsSearchWhere (q : Option String) (f : FindingRow) : Bool :=
  let needle := trim (q.getD "")
  needle = "" ||
    rt.contains f.message needle || rt.contains f.code.text needle ||
    f.ownerLabel.any (rt.contains · needle) || f.service.any (rt.contains · needle) ||
    related db f (rt.contains ·.hostname needle) ||
    related db f (fun s ↦ s.displayName.any (rt.contains · needle)) ||
    (rt.number needle).any fun asPort ↦
      0 ≤ asPort && asPort ≤ 65535 && (f.port.map Int.ofNat == some asPort)

end

/-- One to five digits. -/
def shortNumber (ds : List Char) : Option Nat :=
  if ds ≠ [] ∧ ds.length ≤ 5 ∧ ds.all isDecimal then some (decimalValue ds) else none

/-- The regular expression of the filter by a port: digits, after a protocol or alone. -/
def portPattern (raw : List Char) : Option (Option String × Nat) :=
  if '/' ∈ raw then
    let proto := raw.takeWhile (· ≠ '/')
    if proto ≠ [] ∧ proto.all Char.isAlphanum then
      (shortNumber (raw.dropWhile (· ≠ '/')).tail).map
        (some (String.ofList (proto.map Char.toLower)), ·)
    else none
  else (shortNumber raw).map (none, ·)

def findingsPortWhere (port : Option String) (f : FindingRow) : Bool :=
  given port fun port ↦
    let raw := trim port
    if raw = noValue then f.port = none
    else
      match portPattern raw.toList with
      | none => false
      | some (some proto, n) => f.port = some n ∧ f.proto.map FindingProto.text = some proto
      | some (none, n) => f.port = some n

def portValue (proto : Option FindingProto) (port : Nat) : String :=
  match proto with
  | some proto => proto.text ++ "/" ++ port.repr
  | none => port.repr

/-- What has no blanks in it is not changed by `trim`. -/
theorem trim_eq_self {s : String} (h : ∀ c ∈ s.toList, isSpace c = false) : trim s = s := by
  rw [← String.ofList_toList (s := s)]
  exact trim_ofList (fun c hc ↦ h c (List.mem_of_head? hc)) fun c hc ↦ h c (List.mem_of_getLast? hc)

theorem isDecimal_of_isDigit {c : Char} (h : c.isDigit = true) : isDecimal c = true := by
  simp only [Char.isDigit, Bool.and_eq_true, decide_eq_true_eq] at h
  exact decide_eq_true h

theorem toList_portValue (proto : FindingProto) (n : Nat) :
    (portValue (some proto) n).toList = proto.text.toList ++ '/' :: Nat.toDigits 10 n := by
  simp [portValue]

theorem slash_notMem_text (proto : FindingProto) : '/' ∉ proto.text.toList := by
  cases proto <;> decide

theorem slash_notMem_toDigits (n : Nat) : '/' ∉ Nat.toDigits 10 n := by
  intro hmem
  have hdigit := Nat.isDigit_of_mem_toDigits (by omega) (by omega) hmem
  exact absurd hdigit (by decide)

theorem trim_portValue (proto : FindingProto) (n : Nat) :
    trim (portValue (some proto) n) = portValue (some proto) n := by
  refine trim_eq_self fun c hc ↦ ?_
  rw [toList_portValue, List.mem_append, List.mem_cons] at hc
  rcases hc with hc | rfl | hc
  · have hall : (proto.text.toList.all fun c ↦ isSpace c == false) = true := by
      cases proto <;> decide
    exact eq_of_beq (List.all_eq_true.mp hall c hc)
  · decide
  · exact isSpace_of_isDigit (Nat.isDigit_of_mem_toDigits (by omega) (by omega) hc)

theorem portValue_ne_noValue (proto : FindingProto) (n : Nat) :
    portValue (some proto) n ≠ noValue := by
  intro h
  have hmem : '/' ∈ (portValue (some proto) n).toList := by
    rw [toList_portValue]
    exact List.mem_append_right _ List.mem_cons_self
  rw [h] at hmem
  exact absurd hmem (by decide)

theorem portValue_ne_empty (proto : FindingProto) (n : Nat) : portValue (some proto) n ≠ "" := by
  intro h
  have hlist := toList_portValue proto n
  rw [h] at hlist
  exact absurd hlist.symm (by simp)

theorem splitOn_portValue (proto : FindingProto) (n : Nat) :
    (portValue (some proto) n).toList.splitOn '/' =
      [proto.text.toList, Nat.toDigits 10 n] := by
  have hjoin : (portValue (some proto) n).toList =
      ['/'].intercalate [proto.text.toList, Nat.toDigits 10 n] := by
    rw [toList_portValue]
    simp [List.intercalate]
  rw [hjoin]
  refine List.splitOn_intercalate '/' ?_ (List.cons_ne_nil _ _)
  intro l hl
  simp only [List.mem_cons, List.not_mem_nil, or_false] at hl
  obtain rfl | rfl := hl
  · exact slash_notMem_text proto
  · exact slash_notMem_toDigits n

theorem portValue_inj {proto proto' : FindingProto} {n n' : Nat}
    (h : portValue (some proto) n = portValue (some proto') n') : proto = proto' ∧ n = n' := by
  have hlist := congrArg (fun s ↦ s.toList.splitOn '/') h
  simp only [splitOn_portValue, List.cons.injEq, and_true] at hlist
  refine ⟨?_, repr_injective (String.toList_inj.mp ?_)⟩
  · have hproto := hlist.1
    revert hproto
    cases proto <;> cases proto' <;> decide
  · rw [Nat.toList_repr, Nat.toList_repr]
    exact hlist.2

theorem shortNumber_toDigits (n : Nat) :
    shortNumber (Nat.toDigits 10 n) = if n < 100000 then some n else none := by
  have hall : (Nat.toDigits 10 n).all isDecimal = true := by
    refine List.all_eq_true.mpr fun c hc ↦ ?_
    exact isDecimal_of_isDigit (Nat.isDigit_of_mem_toDigits (by omega) (by omega) hc)
  have hlength : (Nat.toDigits 10 n).length ≤ 5 ↔ n < 100000 :=
    Nat.length_toDigits_le_iff (by omega) (by omega)
  have hvalue : decimalValue (Nat.toDigits 10 n) = n := Nat.ofDigitChars_ten_toDigits
  unfold shortNumber
  rw [hvalue]
  refine if_congr ?_ rfl rfl
  exact ⟨fun h ↦ hlength.mp h.2.1, fun h ↦ ⟨Nat.toDigits_ne_nil, hlength.mpr h, hall⟩⟩

theorem portPattern_portValue (proto : FindingProto) (n : Nat) :
    portPattern (portValue (some proto) n).toList =
      if n < 100000 then some (some proto.text, n) else none := by
  have htext : ∀ c ∈ proto.text.toList, decide (c ≠ '/') = true := fun c hc ↦
    decide_eq_true fun h ↦ slash_notMem_text proto (h ▸ hc)
  have hlower : String.ofList (proto.text.toList.map Char.toLower) = proto.text := by
    cases proto <;> decide
  have hproto : proto.text.toList ≠ [] ∧ proto.text.toList.all Char.isAlphanum = true := by
    cases proto <;> decide
  unfold portPattern
  rw [toList_portValue, if_pos (List.mem_append_right _ List.mem_cons_self),
    List.takeWhile_append_of_pos htext, List.takeWhile_cons_of_neg (by decide), List.append_nil,
    List.dropWhile_append_of_pos htext, List.dropWhile_cons_of_neg (by decide), List.tail_cons,
    shortNumber_toDigits]
  dsimp only
  rw [hlower, if_pos hproto]
  split
  · rfl
  · rfl

inductive Section where
  | open | expected | acknowledged | muted | resolved
deriving DecidableEq

/-- `STATUSES`; the export's `all` is no status. -/
inductive Status where
  | open | muted | resolved

/-- Neither resolved nor muted. -/
def isLive (now : Millis) (f : FindingRow) : Bool :=
  f.resolvedAt.isNone && f.mutedUntil.all (· ≤ now)

def isMuted (now : Millis) (f : FindingRow) : Bool :=
  f.resolvedAt.isNone && f.mutedUntil.any (now < ·)

def inSection (now : Millis) : Section → FindingRow → Bool
  | .resolved, f => f.resolvedAt.isSome
  | .muted, f => isMuted now f
  | .expected, f => isLive now f && f.code == .EXPECTED_PUBLIC
  | .acknowledged, f => isLive now f && f.acknowledgedAt.isSome && f.code != .EXPECTED_PUBLIC
  | .open, f => isLive now f && f.acknowledgedAt.isNone && f.code != .EXPECTED_PUBLIC

def inStatus (now : Millis) : Status → FindingRow → Bool
  | .resolved, f => f.resolvedAt.isSome
  | .muted, f => isMuted now f
  | .open, f => isLive now f

/-- What a list is asked for beside the filters; a section takes precedence. -/
structure Part where
  part : Option Section := none
  status : Option Status := none

def inPart (now : Millis) (p : Part) (f : FindingRow) : Bool :=
  match p.part, p.status with
  | some part, _ => inSection now part f
  | none, some status => inStatus now status f
  | none, none => true

/-- A range of instants. -/
def seenWithin (lastSeenFrom lastSeenTo : Option Millis) (f : FindingRow) : Bool :=
  lastSeenFrom.all (· ≤ f.lastSeenAt) && lastSeenTo.all (f.lastSeenAt ≤ ·)

/-! ## Queries -/

section

variable (rt : Runtime) (db : Fleet) (orgId : Id) (scope : Scope) (now : Millis)

def buildFindingsWhere (q : BaseQuery) (f : FindingRow) : Bool :=
  f.orgId == orgId &&
    related db f (fun s ↦ inScope scope s.toServer && s.isActive &&
      given q.customerId (s.customerId == ·) && given q.environment (s.environment.key == ·)) &&
    given q.serverId (f.serverId == ·) && given q.code (f.code.text == ·) &&
    findingsPortWhere q.port f && seenWithin q.lastSeenFrom q.lastSeenTo f &&
    findingsSearchWhere rt db q.q f

/-- `String.prototype.toUpperCase`, of the letters that severities are written with. -/
def upper (s : String) : String := .ofList (s.toList.map Char.toUpper)

def findingsListAnd (q : Filters) (p : Part) (f : FindingRow) : Bool :=
  buildFindingsWhere rt db orgId scope q.toBaseQuery f &&
    q.severity.all (fun severity ↦ f.severity.text == upper severity.text) && inPart now p f

/-- The findings that a query selects, in the order in which they are stored. -/
def selected (p : FindingRow → Bool) : List FindingRow := db.findings.rows.filter p

/-- What `listFindings` returns. -/
structure Listing where
  findings : List FindingRow
  total : Nat
  page : Nat
  limit : Nat

/-- `listFindings`; a page or a limit that is left out is `none`, and zero counts as left out. -/
def listFindings (q : Filters) (p : Part) (page limit : Option Int) : Listing :=
  let page := (max ((page.filter (· ≠ 0)).getD 1) 1).toNat
  let limit := (min (max ((limit.filter (· ≠ 0)).getD 25) 1) 100).toNat
  let rows := selected db (findingsListAnd rt db orgId scope now q p)
  { findings := pageOf limit page (rt.orderBy (fun a b ↦ b.lastSeenAt ≤ a.lastSeenAt) rows)
    total := rows.length
    page := page
    limit := limit }

/-- The number of findings that satisfy a condition. -/
def countOf (p : FindingRow → Bool) : Nat := (selected db p).length

structure SeverityCounts where
  critical : Nat
  high : Nat
  medium : Nat
  low : Nat
  info : Nat
  muted : Nat

structure SectionCounts where
  «open» : Nat
  expected : Nat
  acknowledged : Nat
  muted : Nat
  resolved : Nat
  total : Nat

/-- The findings in what `getSummary` returns, with the codes for the filter by a code. -/
structure FindingsSummary where
  findings : SeverityCounts
  sections : SectionCounts
  codes : List (FindingCode × Nat)

def getSummary (q : SummaryQuery) : FindingsSummary :=
  let base := buildFindingsWhere rt db orgId scope { q with }
  let live := fun f ↦ base f && isLive now f
  let severe := fun severity ↦ countOf db fun f ↦ live f && f.severity == severity
  let muted := countOf db fun f ↦ base f && isMuted now f
  let acknowledged := countOf db fun f ↦
    live f && f.acknowledgedAt.isSome && f.code != .EXPECTED_PUBLIC
  let expected := countOf db fun f ↦ live f && f.code == .EXPECTED_PUBLIC
  let resolved := countOf db fun f ↦ base f && f.resolvedAt.isSome
  let findings : SeverityCounts :=
    { critical := severe .CRITICAL, high := severe .HIGH, medium := severe .MEDIUM,
      low := severe .LOW, info := severe .INFO, muted := muted }
  let liveTotal := findings.critical + findings.high + findings.medium + findings.low + findings.info
  { findings := findings
    sections :=
      { «open» := liveTotal - acknowledged - expected
        expected := expected
        acknowledged := acknowledged
        muted := muted
        resolved := resolved
        total := liveTotal }
    codes :=
      (tally ((selected db (buildFindingsWhere rt db orgId scope { q with code := none })).map
        fun f ↦ f.code)).mergeSort fun a b ↦ b.2 ≤ a.2 }

def MAX_ROWS : Nat := 50000

/-- `relationScopeWhere`, of a finding -/
def relationScopeWhere (f : FindingRow) : Bool :=
  match scope with
  | .unscoped => true
  | .customers _ => related db f fun s ↦ inScope scope s.toServer

def ofServers (serverId : Option Id) (serverIds : List Id) (f : FindingRow) : Bool :=
  match truthy serverId with
  | some serverId => f.serverId == serverId
  | none => serverIds.isEmpty || serverIds.contains f.serverId

def inExport (now : Millis) : Option Status → FindingRow → Bool
  | some .open, f => f.resolvedAt.isNone && f.mutedUntil.all (· < now)
  | some .muted, f => isMuted now f
  | some .resolved, f => f.resolvedAt.isSome
  | none, _ => true

/-- The condition of `loadFindings`.  The filter by a port is not among those it knows. -/
def exportWhere (q : Filters) (serverIds : List Id) (status : Option Status) (f : FindingRow) :
    Bool :=
  f.orgId == orgId &&
    relationScopeWhere db scope f && ofServers q.serverId serverIds f &&
    q.severity.all (f.severity.text == ·.text) && given q.code (f.code.text == ·) &&
    (if (truthy q.environment).isSome ∨ (truthy q.customerId).isSome then
      related db f fun s ↦
        given q.environment (s.environment.key == ·) && given q.customerId (s.customerId == ·)
    else true) &&
    seenWithin q.lastSeenFrom q.lastSeenTo f && findingsSearchWhere rt db q.q f &&
    inExport now status f

/-- What the export selects, in its order. -/
def exported (q : Filters) (serverIds : List Id) (status : Option Status) : List FindingRow :=
  rt.orderBy
    (fun a b ↦ a.severity.text < b.severity.text ∨
      a.severity.text = b.severity.text ∧ b.lastSeenAt ≤ a.lastSeenAt)
    (selected db (exportWhere rt db orgId scope now q serverIds status))

def loadFindings (q : Filters) (serverIds : List Id) (status : Option Status) : List FindingRow :=
  (exported rt db orgId scope now q serverIds status).take MAX_ROWS

/-- What `buildExport` returns: what is in the file, before it is rendered. -/
structure Export where
  rows : List FindingRow
  rowCount : Nat
  serverCount : Nat

/-- `buildExport`, of the findings in one file -/
def buildExport (q : Filters) (serverIds : List Id) (status : Option Status) : Export :=
  let rows := loadFindings rt db orgId scope now q serverIds status
  { rows := rows
    rowCount := rows.length
    serverCount := (rows.map FindingRow.serverId).dedup.length }

end

/-! ## Groups -/

/-- `FINDING_GROUP_DIMS` -/
inductive Dim where
  | severity | server | customer | environment | code | port
deriving DecidableEq

/-- `SEVERITIES` -/
def severities : List Severity := [.CRITICAL, .HIGH, .MEDIUM, .LOW, .INFO]

def Dim.key : Dim → String
  | .severity => "severity"
  | .server => "server"
  | .customer => "customer"
  | .environment => "environment"
  | .code => "code"
  | .port => "port"

def dims : List Dim := [.severity, .server, .customer, .environment, .code, .port]

/-- `parseGroupBy`, of the keys that a request lists: those that are known, without repeats, and
three at most. -/
def parseGroupBy (list : List String) : List Dim :=
  ((list.filterMap fun k ↦ dims.find? (·.key = trim k)).reverse.dedup.reverse).take 3

/-- The columns that the rows of the groups have; those that are not asked for are undefined. -/
structure Columns where
  severity : Option Severity
  code : Option FindingCode
  proto : Option FindingProto
  port : Option Nat
  serverId : Option Id
deriving DecidableEq

/-- The columns of a finding that grouping by some dimensions reads. -/
def columns (keys : List Dim) (f : FindingRow) : Columns :=
  { severity := if .severity ∈ keys then some f.severity else none
    code := if .code ∈ keys then some f.code else none
    proto := if .port ∈ keys then f.proto else none
    port := if .port ∈ keys then f.port else none
    serverId :=
      if .server ∈ keys ∨ .customer ∈ keys ∨ .environment ∈ keys then some f.serverId else none }

def valueKey (x : Option String) : String := (truthy x).getD noValue

section

variable (rt : Runtime) (db : Fleet) (orgId : Id)

def serverById (id : Id) : Option FleetServer := (db.servers.find id).filter (·.orgId = orgId)

/-- What a group has in a dimension. -/
def dimValue : Dim → Columns → Option String
  | .severity, g => g.severity.map Severity.text
  | .code, g => g.code.map FindingCode.text
  | .port, g => g.port.map (portValue g.proto)
  | .server, g => g.serverId
  | .customer, g => (g.serverId.bind (serverById db orgId)).map fun s ↦ s.customerId
  | .environment, g => (g.serverId.bind (serverById db orgId)).map fun s ↦ s.environment.key

/-- `SEVERITY_ORDER` and `ENVIRONMENT_ORDER` -/
def dimOrder : Dim → List String
  | .severity => ["CRITICAL", "HIGH", "MEDIUM", "LOW", "INFO"]
  | .environment => ["prod", "staging", "dev", "demo"]
  | _ => []

/-- `ENVIRONMENT_LABELS` -/
def environmentLabels : List (String × String) :=
  [("prod", "Production"), ("staging", "Staging"), ("dev", "Development"), ("demo", "Demo")]

def dimLabel (d : Dim) (value : String) : String :=
  if value = noValue then
    match d with
    | .server => "No server"
    | .customer => "No customer"
    | .port => "No port"
    | _ => "None"
  else
    match d with
    | .severity =>
      .ofList (value.toList.take 1 ++ (value.toList.drop 1).map Char.toLower)
    | .server =>
      ((serverById db orgId value).map fun s ↦ (truthy s.displayName).getD s.hostname).getD
        "Unknown server"
    | .customer =>
      (truthy (((db.customers.find value).filter (·.orgId = orgId)).map
        NamedCustomer.name)).getD "Unknown customer"
    | .environment => (truthy (environmentLabels.lookup value)).getD value
    | _ => value

/-- The place of a value in the order of its dimension; what has none comes after, and what is
empty last. -/
def rank (d : Dim) (value : String) : Nat :=
  if value = noValue then (dimOrder d).length + 1 else (dimOrder d).idxOf value

/-- The order of the groups of a level. -/
def comesBefore (d : Dim) (a b : Node Dim String) : Bool :=
  if rank d a.value ≠ rank d b.value then rank d a.value < rank d b.value
  else if a.count ≠ b.count then b.count < a.count
  else rt.localeCompare a.label b.label ≠ .gt

/-- `DIMS` -/
def findingGrouping : Grouping Columns Dim String where
  value d g := valueKey (dimValue db orgId d g)
  label := dimLabel db orgId
  before := comesBefore rt

def getFindingGroups (scope : Scope) (now : Millis) (q : Filters) (p : Part) (groupBy : List String) :
    List (Node Dim String) :=
  let keys := parseGroupBy groupBy
  (findingGrouping rt db orgId).level keys
    (tally ((selected db (findingsListAnd rt db orgId scope now q p)).map (columns keys)))

end

def Filters.withValue (q : Filters) (s : Dim × String) : Filters :=
  match s.1 with
  | .severity => { q with severity := severities.find? (·.text = s.2) }
  | .server => { q with serverId := some s.2 }
  | .customer => { q with customerId := some s.2 }
  | .environment => { q with environment := some s.2 }
  | .code => { q with code := some s.2 }
  | .port => { q with port := some s.2 }

/-! ## The list -/

theorem upper_text (severity : Severity) : upper severity.text = severity.text := by
  cases severity <;> decide

section

variable {rt : Runtime} {db : Fleet} {orgId : Id} {scope : Scope} {now : Millis} {q : Filters}
  {p : Part} {f r : FindingRow} {d : Dim} {keys : List Dim}

theorem related_of_find {s : FleetServer} (h : db.servers.find f.serverId = some s)
    (p : FleetServer → Bool) : related db f p = p s := by
  rw [related, h]
  rfl

theorem exists_server (hf : f ∈ db.findings) :
    ∃ s ∈ db.servers, db.servers.find f.serverId = some s ∧ s.orgId = f.orgId := by
  obtain ⟨s, hs, hid, horg⟩ := db.host_of f hf
  exact ⟨s, hs, Keyed.find_eq_some.mpr ⟨hs, hid⟩, horg⟩

variable (db) in
/-- Whether the filter in a dimension lets a finding through. -/
def admits (q : Filters) (f : FindingRow) : Dim → Bool
  | .severity => q.severity.all fun severity ↦ f.severity.text == upper severity.text
  | .server => given q.serverId (f.serverId == ·)
  | .customer => related db f fun s ↦ given q.customerId (s.customerId == ·)
  | .environment => related db f fun s ↦ given q.environment (s.environment.key == ·)
  | .code => given q.code (f.code.text == ·)
  | .port => findingsPortWhere q.port f

variable (rt db orgId scope now) in
/-- What the list asks for beside the filters in the dimensions. -/
def rest (q : SummaryQuery) (p : Part) (f : FindingRow) : Bool :=
  f.orgId == orgId && related db f (fun s ↦ inScope scope s.toServer && s.isActive) &&
    seenWithin q.lastSeenFrom q.lastSeenTo f && findingsSearchWhere rt db q.q f && inPart now p f

theorem findingsListAnd_iff (hf : f ∈ db.findings) :
    findingsListAnd rt db orgId scope now q p f = true ↔
      rest rt db orgId scope now q.toSummaryQuery p f = true ∧ ∀ d, admits db q f d = true := by
  obtain ⟨s, -, hs, -⟩ := exists_server hf
  unfold findingsListAnd buildFindingsWhere rest
  simp only [related_of_find hs, Bool.and_eq_true]
  constructor
  · rintro ⟨⟨⟨⟨⟨⟨⟨⟨horg, ⟨⟨hscope, hactive⟩, hcustomer⟩, henvironment⟩, hserver⟩, hcode⟩, hport⟩,
      hseen⟩, hsearch⟩, hseverity⟩, hpart⟩
    refine ⟨⟨⟨⟨⟨horg, hscope, hactive⟩, hseen⟩, hsearch⟩, hpart⟩, fun d ↦ ?_⟩
    cases d with
    | severity => exact hseverity
    | server => exact hserver
    | customer => exact (related_of_find hs _).trans hcustomer
    | environment => exact (related_of_find hs _).trans henvironment
    | code => exact hcode
    | port => exact hport
  · rintro ⟨⟨⟨⟨⟨horg, hscope, hactive⟩, hseen⟩, hsearch⟩, hpart⟩, h⟩
    have hcustomer := (related_of_find hs _).symm.trans (h .customer)
    have henvironment := (related_of_find hs _).symm.trans (h .environment)
    exact ⟨⟨⟨⟨⟨⟨⟨⟨horg, ⟨⟨hscope, hactive⟩, hcustomer⟩, henvironment⟩, h .server⟩, h .code⟩,
      h .port⟩, hseen⟩, hsearch⟩, h .severity⟩, hpart⟩

/-! ## Values -/

variable (rt db orgId) in
def rowValue (d : Dim) (f : FindingRow) : String :=
  (findingGrouping rt db orgId).value d (columns dims f)

theorem value_columns (hd : d ∈ keys) :
    (findingGrouping rt db orgId).value d (columns keys f) = rowValue rt db orgId d f := by
  cases d <;> simp [rowValue, findingGrouping, dimValue, columns, hd, dims]

theorem valueKey_some {x : String} (h : x ≠ "") : valueKey (some x) = x := by
  rw [valueKey, truthy, if_neg h]
  rfl

theorem rowValue_severity : rowValue rt db orgId .severity f = f.severity.text := by
  refine valueKey_some ?_
  cases f.severity <;> decide

theorem rowValue_code : rowValue rt db orgId .code f = f.code.text := by
  refine valueKey_some ?_
  cases f.code <;> decide

theorem serverById_of_find {s : FleetServer} (hs : db.servers.find f.serverId = some s)
    (horg : s.orgId = orgId) : serverById db orgId f.serverId = some s := by
  rw [serverById, hs]
  exact Option.filter_some_pos (decide_eq_true horg)

theorem rowValue_server (hf : f ∈ db.findings) : rowValue rt db orgId .server f = f.serverId := by
  obtain ⟨s, hs, hid, -⟩ := db.host_of f hf
  exact valueKey_some (hid ▸ (db.id_ne s hs).1)

theorem rowValue_customer {s : FleetServer} (hs : db.servers.find f.serverId = some s)
    (horg : s.orgId = orgId) : rowValue rt db orgId .customer f = s.customerId := by
  have hvalue : dimValue db orgId .customer (columns dims f) = some s.customerId :=
    congrArg (Option.map _) (serverById_of_find hs horg)
  exact (congrArg valueKey hvalue).trans (valueKey_some (db.id_ne s (Keyed.mem_of_find hs)).2)

theorem rowValue_environment {s : FleetServer} (hs : db.servers.find f.serverId = some s)
    (horg : s.orgId = orgId) : rowValue rt db orgId .environment f = s.environment.key := by
  have hvalue : dimValue db orgId .environment (columns dims f) = some s.environment.key :=
    congrArg (Option.map _) (serverById_of_find hs horg)
  refine (congrArg valueKey hvalue).trans (valueKey_some ?_)
  cases s.environment <;> decide

theorem rowValue_port_none (h : f.port = none) : rowValue rt db orgId .port f = noValue := by
  have hvalue : dimValue db orgId .port (columns dims f) = none := congrArg (Option.map _) h
  exact congrArg valueKey hvalue

theorem rowValue_port_some {n : Nat} {proto : FindingProto} (h : f.port = some n)
    (hproto : f.proto = some proto) :
    rowValue rt db orgId .port f = portValue (some proto) n := by
  have hvalue : dimValue db orgId .port (columns dims f) = some (portValue (some proto) n) := by
    rw [← hproto]
    exact congrArg (Option.map _) h
  exact (congrArg valueKey hvalue).trans (valueKey_some (portValue_ne_empty proto n))

theorem findingsPortWhere_congr {port : Option String} (hport : f.port = r.port)
    (hproto : f.port ≠ none → f.proto = r.proto) :
    findingsPortWhere port f = findingsPortWhere port r := by
  cases hn : f.port with
  | none =>
    rw [hn] at hport
    simp [findingsPortWhere, hn, ← hport]
  | some n =>
    have hp : f.proto = r.proto := hproto (by rw [hn]; exact Option.some_ne_none n)
    simp only [findingsPortWhere, hport, hp]

theorem port_of_rowValue (hf : f ∈ db.findings) (hr : r ∈ db.findings)
    (h : rowValue rt db orgId .port f = rowValue rt db orgId .port r) :
    f.port = r.port ∧ (f.port ≠ none → f.proto = r.proto) := by
  cases hn : f.port with
  | none =>
    rw [rowValue_port_none hn] at h
    refine ⟨?_, fun hne ↦ absurd rfl hne⟩
    cases hm : r.port with
    | none => rfl
    | some m =>
      obtain ⟨proto, hproto⟩ := Option.isSome_iff_exists.mp (db.proto_of r hr (by rw [hm]; rfl))
      rw [rowValue_port_some hm hproto] at h
      exact absurd h.symm (portValue_ne_noValue proto m)
  | some n =>
    obtain ⟨proto, hproto⟩ := Option.isSome_iff_exists.mp (db.proto_of f hf (by rw [hn]; rfl))
    rw [rowValue_port_some hn hproto] at h
    cases hm : r.port with
    | none =>
      rw [rowValue_port_none hm] at h
      exact absurd h (portValue_ne_noValue proto n)
    | some m =>
      obtain ⟨proto', hproto'⟩ :=
        Option.isSome_iff_exists.mp (db.proto_of r hr (by rw [hm]; rfl))
      rw [rowValue_port_some hm hproto'] at h
      obtain ⟨rfl, rfl⟩ := portValue_inj h
      exact ⟨rfl, fun _ ↦ hproto.trans hproto'.symm⟩

theorem findingsPortWhere_portValue (proto : FindingProto) (n : Nat) :
    findingsPortWhere (some (portValue (some proto) n)) f =
      decide (n < 100000 ∧ f.port = some n ∧ f.proto = some proto) := by
  rw [findingsPortWhere, given_some (portValue_ne_empty proto n)]
  dsimp only
  rw [trim_portValue, if_neg (portValue_ne_noValue proto n), portPattern_portValue]
  by_cases hn : n < 100000
  · rw [if_pos hn]
    dsimp only
    refine decide_eq_decide.mpr ⟨fun h ↦ ⟨hn, h.1, ?_⟩, fun h ↦ ⟨h.2.1, ?_⟩⟩
    · obtain ⟨proto', hproto, htext⟩ := Option.map_eq_some_iff.mp h.2
      rw [hproto]
      revert htext
      cases proto <;> cases proto' <;> decide
    · rw [h.2.2]
      rfl
  · rw [if_neg hn]
    exact (decide_eq_false fun h ↦ hn h.1).symm

theorem findingsPortWhere_noValue :
    findingsPortWhere (some noValue) f = decide (f.port = none) := by
  have htrim : trim noValue = noValue := by decide
  rw [findingsPortWhere, given_some (by decide)]
  dsimp only
  rw [htrim, if_pos rfl]

theorem findingsPortWhere_rowValue (hf : f ∈ db.findings) (hr : r ∈ db.findings)
    (hport : ∀ n ∈ r.port, n < 100000) :
    findingsPortWhere (some (rowValue rt db orgId .port r)) f =
      decide (rowValue rt db orgId .port f = rowValue rt db orgId .port r) := by
  have hiff : f.port = r.port ∧ (f.port ≠ none → f.proto = r.proto) ↔
      rowValue rt db orgId .port f = rowValue rt db orgId .port r := by
    refine ⟨fun h ↦ ?_, port_of_rowValue hf hr⟩
    cases hn : f.port with
    | none =>
      rw [rowValue_port_none hn, rowValue_port_none (h.1.symm.trans hn)]
    | some n =>
      obtain ⟨proto, hproto⟩ := Option.isSome_iff_exists.mp (db.proto_of f hf (by rw [hn]; rfl))
      have hne : f.port ≠ none := by rw [hn]; exact Option.some_ne_none n
      rw [rowValue_port_some hn hproto,
        rowValue_port_some (h.1.symm.trans hn) ((h.2 hne).symm.trans hproto)]
  rw [Bool.eq_iff_iff, decide_eq_true_iff, ← hiff]
  cases hm : r.port with
  | none =>
    rw [rowValue_port_none hm, findingsPortWhere_noValue, decide_eq_true_iff]
    exact ⟨fun h ↦ ⟨h, fun hne ↦ absurd h hne⟩, fun h ↦ h.1⟩
  | some m =>
    obtain ⟨proto, hproto⟩ := Option.isSome_iff_exists.mp (db.proto_of r hr (by rw [hm]; rfl))
    rw [rowValue_port_some hm hproto, findingsPortWhere_portValue, decide_eq_true_iff, hproto]
    exact ⟨fun h ↦ ⟨h.2.1, fun _ ↦ h.2.2⟩, fun h ↦
      ⟨hport m hm, h.1, h.2 (by rw [h.1]; exact Option.some_ne_none m)⟩⟩

theorem admits_congr (hf : f ∈ db.findings) (hr : r ∈ db.findings) (hforg : f.orgId = orgId)
    (hrorg : r.orgId = orgId) (h : rowValue rt db orgId d f = rowValue rt db orgId d r) :
    admits db q f d = admits db q r d := by
  obtain ⟨s, -, hs, hsorg⟩ := exists_server hf
  obtain ⟨t, -, ht, htorg⟩ := exists_server hr
  cases d with
  | severity =>
    rw [rowValue_severity, rowValue_severity] at h
    simp only [admits, h]
  | server =>
    rw [rowValue_server hf, rowValue_server hr] at h
    simp only [admits, h]
  | customer =>
    rw [rowValue_customer hs (hsorg.trans hforg), rowValue_customer ht (htorg.trans hrorg)] at h
    simp only [admits, related_of_find hs, related_of_find ht, h]
  | environment =>
    rw [rowValue_environment hs (hsorg.trans hforg),
      rowValue_environment ht (htorg.trans hrorg)] at h
    simp only [admits, related_of_find hs, related_of_find ht, h]
  | code =>
    rw [rowValue_code, rowValue_code] at h
    simp only [admits, h]
  | port =>
    obtain ⟨hport, hproto⟩ := port_of_rowValue hf hr h
    simp only [admits]
    exact findingsPortWhere_congr hport hproto

theorem admits_withValue_self (hf : f ∈ db.findings) (hr : r ∈ db.findings)
    (hforg : f.orgId = orgId) (hrorg : r.orgId = orgId)
    (hport : d = .port → ∀ n ∈ r.port, n < 100000) :
    admits db (q.withValue (d, rowValue rt db orgId d r)) f d =
      decide (rowValue rt db orgId d f = rowValue rt db orgId d r) := by
  obtain ⟨s, hsmem, hs, hsorg⟩ := exists_server hf
  obtain ⟨t, htmem, ht, htorg⟩ := exists_server hr
  cases d with
  | severity =>
    rw [rowValue_severity, rowValue_severity]
    have hfind : severities.find? (fun x ↦ x.text = r.severity.text) = some r.severity := by
      cases r.severity <;> decide
    simp only [admits, Filters.withValue, hfind, Option.all_some, upper_text]
    rfl
  | server =>
    obtain ⟨u, hu, huid, -⟩ := db.host_of r hr
    rw [rowValue_server hf, rowValue_server hr]
    exact given_some (huid ▸ (db.id_ne u hu).1) _
  | customer =>
    rw [rowValue_customer hs (hsorg.trans hforg), rowValue_customer ht (htorg.trans hrorg)]
    exact (related_of_find hs _).trans (given_some (db.id_ne t htmem).2 _)
  | environment =>
    rw [rowValue_environment hs (hsorg.trans hforg),
      rowValue_environment ht (htorg.trans hrorg)]
    refine (related_of_find hs _).trans (given_some ?_ _)
    cases t.environment <;> decide
  | code =>
    rw [rowValue_code, rowValue_code]
    refine given_some ?_ _
    cases r.code <;> decide
  | port =>
    simp only [admits, Filters.withValue]
    exact findingsPortWhere_rowValue hf hr (hport rfl)

theorem admits_withValue_of_ne {e : Dim} (h : e ≠ d) (x : String) :
    admits db (q.withValue (d, x)) f e = admits db q f e := by
  cases d <;> cases e <;> first | rfl | exact absurd rfl h

theorem rest_withValue (x : Dim × String) :
    rest rt db orgId scope now (q.withValue x).toSummaryQuery p f =
      rest rt db orgId scope now q.toSummaryQuery p f := by
  obtain ⟨d, x⟩ := x
  cases d <;> rfl

end

end Shellius.Posture.Views
