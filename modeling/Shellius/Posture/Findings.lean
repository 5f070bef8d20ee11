import Mathlib.Data.List.Infix
import Shellius.Lib.Table
import Shellius.Posture.Firewall

/-!
# Findings

What `computeFindings` makes of a report: the listeners with their reachability, their service and
their owner, and the findings about the host.  It is a function of the report and the settings.
-/

namespace Shellius.Posture

open Lib

/-! ## Settings and services -/

/-- A port that is expected to be public; without a protocol it is expected on both. -/
structure ExpectedPort where
  port : Nat
  proto : Option Proto := none
  label : Option String := none
  note : Option String := none
  scope : Option String := none

structure Settings where
  serverExpectedPorts : List ExpectedPort := []
  expectedPublicPorts : List ExpectedPort := []

/-- A text of a report that may be left out or null. -/
inductive Field where
  | undefined
  | null
  | text (s : String)

namespace Field

def nonempty : Field → Option String
  | .text s => if s = "" then none else some s
  | _ => none

def shown : Field → String
  | .undefined => "undefined"
  | .null => "null"
  | .text s => s

end Field

structure DeclaredPort where
  proto : Proto
  port : Nat
  containerPort : Option Nat := none
  bind : Option String := none

structure Service where
  kind : Field := .undefined
  name : Field := .undefined
  ref : Field := .undefined
  state : String := "unknown"
  running : Bool := false
  statusText : Field := .undefined
  detail : Field := .undefined
  sourcePath : Field := .undefined
  exitCode : Option Int := none
  ports : List DeclaredPort := []

/-! ## Services by port and by name -/

/-- `SENSITIVE_PORTS` -/
def sensitivePorts : List (Nat × String) := [
  (5432, "PostgreSQL"), (3306, "MySQL/MariaDB"), (1433, "MSSQL"), (27017, "MongoDB"),
  (27018, "MongoDB"), (6379, "Redis"), (11211, "Memcached"), (9200, "Elasticsearch"),
  (9300, "Elasticsearch cluster"), (5984, "CouchDB"), (8086, "InfluxDB"), (9042, "Cassandra"),
  (2375, "Docker API (plaintext)"), (2376, "Docker API (TLS)"), (2379, "etcd"), (8500, "Consul"),
  (4646, "Nomad"), (5672, "RabbitMQ AMQP"), (15672, "RabbitMQ mgmt"), (9090, "Prometheus"),
  (9093, "Alertmanager"), (9100, "node_exporter"), (5601, "Kibana"), (3389, "RDP"), (5900, "VNC"),
  (2049, "NFS"), (445, "SMB"), (139, "NetBIOS"), (25, "SMTP"), (10250, "kubelet"),
  (6443, "Kubernetes API"), (7474, "Neo4j"), (8009, "AJP"), (50070, "Hadoop NN")]

/-- `EXPECTED_PUBLIC_BUILTIN` -/
def expectedPublicBuiltin : List (Nat × String) := [(22, "SSH"), (80, "HTTP"), (443, "HTTPS")]

/-- `NAME_SENSITIVE_RULES`, each by the alternatives of its expression. -/
def nameSensitiveRules : List (List String × String) := [
  (["postgres", "timescale", "pgvector", "postgis"], "PostgreSQL"),
  (["redis", "valkey"], "Redis"),
  (["mongo"], "MongoDB"),
  (["mysql", "mariadb", "percona"], "MySQL/MariaDB"),
  (["elasticsearch", "opensearch"], "Elasticsearch"),
  (["clickhouse"], "ClickHouse"),
  (["rabbitmq"], "RabbitMQ"),
  (["memcached"], "Memcached"),
  (["cassandra"], "Cassandra"),
  (["influxdb"], "InfluxDB"),
  (["neo4j"], "Neo4j"),
  (["couchdb"], "CouchDB"),
  (["minio"], "MinIO"),
  (["etcd"], "etcd"),
  (["mssql", "sqlserver"], "MSSQL")]

/-- Whether one of some words occurs in a text, in either case. -/
def mentions (words : List String) (s : String) : Bool :=
  words.any fun w ↦ w.toList <:+: s.toList.map Char.toLower

def nameSensitive (s : Option String) : Option String :=
  s.bind fun s ↦ (nameSensitiveRules.find? fun rule ↦ mentions rule.1 s).map Prod.snd

def portLabel (port : Nat) : Option String := sensitivePorts.lookup port

def serviceIdentity (l : Listener) : Option String :=
  (match l.containerPort.filter (· ≠ 0) with
    | some containerPort => portLabel containerPort
    | none => portLabel l.port) <|>
  nameSensitive l.ownerDetail <|> nameSensitive l.ownerName <|> nameSensitive l.process

/-! ## Owners -/

/-- `s || d` -/
def orElse (s : Option String) (d : String) : String := (s.filter (· ≠ "")).getD d

def ownerLabelFor (l : Listener) : String :=
  let name := orElse l.ownerName "unknown"
  match orElse l.ownerKind "unknown" with
  | "docker" => "docker/" ++ name
  | "docker-rootless" => "docker*/" ++ name
  | "podman" => "podman/" ++ name
  | "podman-rootless" => "podman*/" ++ name
  | "container" => name
  | "docker-proxy" => "docker/(proxy " ++ orElse l.ownerDetail "?" ++ ")"
  | "pm2" => "pm2/" ++ name
  | "systemd" => "systemd/" ++ name
  | "systemd-user" => "systemd*/" ++ name
  | "unknown" => "unknown(" ++ name ++ ")"
  | _ => name

def isPlaceholderOwnerLabel (label : String) : Bool :=
  label = "" ∨ "unknown(".toList <+: label.toList ∨ "docker/(proxy".toList <+: label.toList

/-- `Number.parseInt(s, 10)`, when it is finite. -/
def parseInt (s : List Char) : Option Int :=
  let (sign, rest) : Int × List Char :=
    match s with
    | '-' :: cs => (-1, cs)
    | '+' :: cs => (1, cs)
    | cs => (1, cs)
  let digits := rest.takeWhile isDecimal
  if digits = [] ∨ 2 ^ 1024 - 2 ^ 970 ≤ decimalValue digits then none
  else some (sign * decimalValue digits)

def firstPid (pidsStr : Option String) : Option Int :=
  (pidsStr.filter (· ≠ "")).bind fun s ↦
    parseInt (trim (.ofList ((s.toList.splitOn ',').headD []))).toList

/-! ## Listeners -/

/-- A listener with what has been found out about it. -/
structure Enriched where
  proto : Proto
  bind : String
  port : Nat
  containerPort : Option Nat
  bindClass : BindClass
  reachability : Reachability
  service : Option String
  ownerKind : String
  ownerName : String
  ownerDetail : Option String
  ownerRef : Option String
  ownerUser : Option String
  process : Option String
  sourcePath : Option String
  pid : Option Int
  ownerLabel : String
  dockerBypass : Bool
  source : Source

def enrich (fw : Firewall) (l : Listener) : Enriched :=
  let reach := reachabilityFor l fw
  { proto := l.proto
    bind := reach.bind
    port := l.port
    containerPort := l.containerPort.filter (· ≠ 0)
    bindClass := reach.bindClass
    reachability := reach.reachability
    service := serviceIdentity l
    ownerKind := orElse l.ownerKind "unknown"
    ownerName := orElse l.ownerName "unknown"
    ownerDetail := l.ownerDetail.filter (· ≠ "")
    ownerRef := l.ownerRef.filter (· ≠ "")
    ownerUser := l.ownerUser.filter (· ≠ "")
    process := l.process.filter (· ≠ "")
    sourcePath := l.sourcePath.filter (· ≠ "")
    pid := firstPid l.pids
    ownerLabel := ownerLabelFor l
    dockerBypass := reach.dockerBypass
    source := l.source }

/-- What is known of a port, over all the addresses it is bound to. -/
structure Agg where
  proto : Proto
  port : Nat
  reachability : Reachability
  bind : String
  ownerLabel : String
  service : Option String
  dockerBypass : Bool

/-- `REACH_RANK` -/
def Reachability.rank : Reachability → Nat
  | .INTERNET => 5
  | .LAN => 4
  | .FIREWALLED => 3
  | .UNKNOWN => 2
  | .LOOPBACK => 1

/-- The worst address wins, and the best owner. -/
def Agg.merge (l : Enriched) (a : Agg) : Agg :=
  let worse : Bool := a.reachability.rank < l.reachability.rank
  { a with
    reachability := if worse then l.reachability else a.reachability
    bind := if worse then l.bind else a.bind
    ownerLabel :=
      if isPlaceholderOwnerLabel a.ownerLabel ∧ ¬ isPlaceholderOwnerLabel l.ownerLabel then l.ownerLabel
      else a.ownerLabel
    service := a.service <|> l.service
    dockerBypass := a.dockerBypass ∨ l.dockerBypass }

/-- The ports of some listeners, each once, in the order they come in. -/
def aggregate (ls : List Enriched) : List Agg :=
  ls.foldl (fun aggs l ↦
    let aggs := if aggs.any fun a ↦ a.proto = l.proto ∧ a.port = l.port then aggs
      else aggs ++ [⟨l.proto, l.port, l.reachability, l.bind, l.ownerLabel, l.service, false⟩]
    modify (fun a ↦ (a.proto, a.port)) (l.proto, l.port) (Agg.merge l) aggs) []

/-! ## Findings -/

inductive FindingCode where
  | DOCKER_FIREWALL_BYPASS
  | SENSITIVE_PORT_EXPOSED
  | PORT_EXPOSED
  | NO_HOST_FIREWALL
  | FIREWALL_INACTIVE
  | SENSITIVE_PORT_WILDCARD_BIND
  | SENSITIVE_PORT_LAN
  | STALE_FIREWALL_RULE
  | STOPPED_SERVICE_PORT_OPEN
  | UNATTRIBUTED_LISTENER
  | EXPECTED_PUBLIC
  | FIREWALL_STATE_UNKNOWN
deriving DecidableEq

inductive Severity where
  | INFO
  | LOW
  | MEDIUM
  | HIGH
  | CRITICAL
deriving DecidableEq

/-- `SEVERITY` -/
def FindingCode.severity : FindingCode → Severity
  | .DOCKER_FIREWALL_BYPASS | .SENSITIVE_PORT_EXPOSED => .CRITICAL
  | .PORT_EXPOSED | .NO_HOST_FIREWALL | .FIREWALL_INACTIVE => .HIGH
  | .SENSITIVE_PORT_WILDCARD_BIND | .STOPPED_SERVICE_PORT_OPEN => .MEDIUM
  | .SENSITIVE_PORT_LAN | .STALE_FIREWALL_RULE | .UNATTRIBUTED_LISTENER => .LOW
  | .EXPECTED_PUBLIC | .FIREWALL_STATE_UNKNOWN => .INFO

inductive FindingProto where
  | tcp
  | udp
  | any
deriving DecidableEq

def Proto.named : Proto → FindingProto
  | .tcp => .tcp
  | .udp => .udp

/-- `rule.proto || 'any'` -/
def namedOrAny (proto : Option Proto) : FindingProto := (proto.map Proto.named).getD .any

inductive Value where
  | null
  | text (s : String)
  | number (n : Int)
deriving DecidableEq

def Value.ofText (s : Option String) : Value := (s.map Value.text).getD .null

/-- A field in the details; what is undefined is left out. -/
def Field.entry (key : String) : Field → List (String × Value)
  | .undefined => []
  | .null => [(key, .null)]
  | .text s => [(key, .text s)]

structure Finding where
  code : FindingCode
  severity : Severity
  proto : Option FindingProto
  port : Option Nat
  ownerLabel : Option String
  service : Option String
  message : String
  detail : List (String × Value)
deriving DecidableEq

def mkFinding (code : FindingCode) (proto : Option FindingProto) (port : Option Nat)
    (ownerLabel service : Option String) (message : String) (detail : List (String × Value)) : Finding :=
  ⟨code, code.severity, proto, port, ownerLabel, service, message, detail⟩

def Engine.text : Engine → String
  | .ufw => "ufw"
  | .firewalld => "firewalld"
  | .iptables => "iptables"
  | .nftables => "nftables"
  | .none => "none"
  | .unknown => "unknown"

/-- What `isExpectedPublic` returns when a port is expected to be public. -/
structure Expected where
  source : String
  label : String

def isExpectedPublic (port : Nat) (proto : Proto) (expectedPublicPorts : List ExpectedPort) :
    Option Expected :=
  match expectedPublicPorts.find? fun rule ↦
      rule.port = port ∧ (rule.proto = none ∨ rule.proto = some proto) with
  | some rule => some {
      source := if rule.scope = some "server" then "server" else "setting"
      label := ((rule.label.filter (· ≠ "")) <|> (rule.note.filter (· ≠ "")) <|>
        expectedPublicBuiltin.lookup port).getD ("port " ++ port.repr) }
  | none => (expectedPublicBuiltin.lookup port).map fun label ↦ ⟨"builtin", label⟩

def reachabilityFindings (firewall : Firewall) (expectedPublicPorts : List ExpectedPort) (a : Agg) :
    List Finding :=
  let proto := some a.proto.named
  let port := some a.port
  let owner := some a.ownerLabel
  let bind := ("bind", Value.text a.bind)
  match a.reachability, a.service with
  | .INTERNET, some service =>
    [mkFinding .SENSITIVE_PORT_EXPOSED proto port owner a.service
      (service ++ " is reachable from any source address.") [bind]]
  | .INTERNET, none =>
    match isExpectedPublic a.port a.proto expectedPublicPorts with
    | some expected =>
      [mkFinding .EXPECTED_PUBLIC proto port owner (some expected.label)
        (expected.label ++ " — public exposure is expected here.")
        [bind, ("matchedBy", .text expected.source)]]
    | none =>
      [mkFinding .PORT_EXPOSED proto port owner none
        ("Reachable from any source address and not a known-public service. Confirm this is " ++
          "intended.") [bind]]
  | .FIREWALLED, some service =>
    [mkFinding .SENSITIVE_PORT_WILDCARD_BIND proto port owner a.service
      (service ++ " binds " ++ a.bind ++ " and is protected only by a firewall rule. Bind it to " ++
        "127.0.0.1 so it is safe by construction, not by one firewall rule.") [bind]]
  | .LAN, some service =>
    [mkFinding .SENSITIVE_PORT_LAN proto port owner a.service
      (service ++ " is reachable from the local network.") [bind]]
  | .UNKNOWN, _ =>
    [mkFinding .FIREWALL_STATE_UNKNOWN proto port owner a.service
      ("The firewall state for this host could not be evaluated with confidence (unsupported " ++
        "engine, or asymmetric IPv4/IPv6 policy), so reachability for this port is unknown rather " ++
        "than assumed safe.")
      [bind, ("firewallEngine", .text firewall.engine.text)]]
  | _, _ => []

def portFindings (firewall : Firewall) (expectedPublicPorts : List ExpectedPort) (a : Agg) :
    List Finding :=
  if a.dockerBypass then
    [mkFinding .DOCKER_FIREWALL_BYPASS (some a.proto.named) (some a.port) (some a.ownerLabel) a.service
      ((a.service.map (· ++ " — ")).getD "" ++ "Docker publishes this port; the DNAT rule bypasses " ++
        "the host firewall's input rules, so the rule covering it is NOT enforced. Bind to 127.0.0.1, " ++
        "or use a Docker-aware firewall integration (ufw-docker / firewalld's docker zone).")
      [("bind", .text a.bind), ("firewallEngine", .text firewall.engine.text)]]
  else
    reachabilityFindings firewall expectedPublicPorts a ++
      if isPlaceholderOwnerLabel a.ownerLabel ∧ "unknown(".toList <+: a.ownerLabel.toList then
        [mkFinding .UNATTRIBUTED_LISTENER (some a.proto.named) (some a.port) (some a.ownerLabel)
          a.service "Could not attribute this listener to a container, pm2 app or systemd unit."
          [("bind", .text a.bind)]]
      else []

def svcLabel (svc : Service) : String :=
  match svc.kind with
  | .text "docker" => "the docker container “" ++ svc.name.shown ++ "”"
  | .text "podman" => "the podman container “" ++ svc.name.shown ++ "”"
  | .text "systemd" => "the unit " ++ svc.name.shown
  | .text "pm2" => "the pm2 app “" ++ svc.name.shown ++ "”"
  | _ => "“" ++ svc.name.shown ++ "”"

def stoppedOwnerOf (services : List Service) (proto : Option Proto) (port : Nat) : Option Service :=
  (services.filter fun svc ↦ ¬ svc.running).find? fun svc ↦
    svc.ports.any fun dp ↦ dp.port = port ∧ (proto = none ∨ some dp.proto = proto)

def staleFinding (services : List Service) (rule : Rule) (port : Nat) : Finding :=
  let proto := some (namedOrAny rule.proto)
  let origin := orElse rule.origin "Anywhere"
  match stoppedOwnerOf services rule.proto port with
  | some owner =>
    mkFinding .STOPPED_SERVICE_PORT_OPEN proto (some port)
      (some (owner.kind.shown ++ "/" ++ owner.name.shown)) none
      (svcLabel owner ++ " is " ++ owner.state ++ " but the firewall still allows this port from " ++
        origin ++ ". It becomes reachable again the moment the service starts — either start it " ++
        "deliberately or remove the rule.")
      (("from", .text origin) :: owner.kind.entry "serviceKind" ++ owner.name.entry "serviceName" ++
        [("serviceState", .text owner.state), ("serviceStatus", .ofText owner.statusText.nonempty),
          ("exitCode", (owner.exitCode.map Value.number).getD .null)])
  | none =>
    mkFinding .STALE_FIREWALL_RULE proto (some port) none none
      ("The firewall allows this port from " ++ origin ++ ", but nothing is listening on it. The " ++
        "rule can likely be removed.")
      [("from", .text origin)]

def ruleFindings (services : List Service) (seenPorts : List Nat) (rule : Rule) : List Finding :=
  if rule.action ≠ .ALLOW ∧ rule.action ≠ .LIMIT then []
  else
    let spec := (trim rule.port).toList
    if ':' ∈ spec then []
    else
      (((spec.splitOn ',').filterMap number).filter (· ∉ seenPorts)).map (staleFinding services rule)

def engineFindings (firewall : Firewall) : List Finding :=
  if firewall.engine = .none then
    [mkFinding .NO_HOST_FIREWALL none none none none
      ("No host firewall detected — every listening port is reachable unless something upstream " ++
        "blocks it.") []]
  else if (firewall.engine = .ufw ∨ firewall.engine = .firewalld) ∧ ¬ firewall.active then
    [mkFinding .FIREWALL_INACTIVE none none none none
      (firewall.engine.text ++ " is installed but inactive. Its rules are not being enforced.")
      [("firewallEngine", .text firewall.engine.text)]]
  else if firewall.engine ∈ parsedEngines ∧ firewall.parsed ∧ ¬ firewall.active then
    [mkFinding .FIREWALL_INACTIVE none none none none
      (firewall.engine.text ++ " is present but its INPUT chain accepts everything — no inbound " ++
        "traffic is filtered.")
      [("firewallEngine", .text firewall.engine.text)]]
  else []

/-- What is read of a snapshot. -/
structure Facts where
  firewall : Firewall
  listeners : List Listener := []
  services : List Service := []

/-- What is made of it. -/
structure Computed where
  listeners : List Enriched
  findings : List Finding

def computeFindings (snapshot : Facts) (settings : Settings) : Computed :=
  let expectedPublicPorts :=
    settings.serverExpectedPorts.map (fun r ↦ { r with scope := some "server" }) ++
      settings.expectedPublicPorts
  let enriched := snapshot.listeners.map (enrich snapshot.firewall)
  let seenPorts := enriched.map (·.port)
  { listeners := enriched
    findings :=
      (aggregate enriched).flatMap (portFindings snapshot.firewall expectedPublicPorts) ++
      (if snapshot.firewall.usable then
        snapshot.firewall.rules.flatMap (ruleFindings snapshot.services seenPorts) else []) ++
      engineFindings snapshot.firewall }

section

variable {firewall : Firewall} {expectedPublicPorts : List ExpectedPort} {a : Agg} {f : Finding}
  {services : List Service} {seenPorts : List Nat} {rule : Rule}

/-- A port comes with a protocol. -/
def Finding.Placed (f : Finding) : Prop := f.port.isSome = true → f.proto.isSome = true

theorem placed_reachabilityFindings :
    ∀ f ∈ reachabilityFindings firewall expectedPublicPorts a, f.severity = f.code.severity ∧ f.Placed := by
  unfold reachabilityFindings
  split
  case h_2 => split <;> simp [mkFinding, Finding.Placed]
  all_goals simp [mkFinding, Finding.Placed]

theorem placed_portFindings :
    ∀ f ∈ portFindings firewall expectedPublicPorts a, f.severity = f.code.severity ∧ f.Placed := by
  unfold portFindings
  split
  · simp [mkFinding, Finding.Placed]
  · refine List.forall_mem_append.mpr ⟨placed_reachabilityFindings, ?_⟩
    split <;> simp [mkFinding, Finding.Placed]

theorem placed_ruleFindings :
    ∀ f ∈ ruleFindings services seenPorts rule, f.severity = f.code.severity ∧ f.Placed := by
  unfold ruleFindings staleFinding
  split_ifs
  · simp
  · dsimp only
    split_ifs
    · simp
    · intro f hf
      obtain ⟨port, -, rfl⟩ := List.mem_map.mp hf
      split <;> simp [mkFinding, Finding.Placed]

theorem placed_of_mem_findings {snapshot : Facts} {settings : Settings}
    (h : f ∈ (computeFindings snapshot settings).findings) : f.severity = f.code.severity ∧ f.Placed := by
  simp only [computeFindings, List.mem_append, List.mem_flatMap] at h
  rcases h with (⟨a, -, h⟩ | h) | h
  · exact placed_portFindings f h
  · split at h
    · obtain ⟨rule, -, h⟩ := List.mem_flatMap.mp h
      exact placed_ruleFindings f h
    · cases h
  · unfold engineFindings at h
    split_ifs at h <;> simp_all [mkFinding, Finding.Placed]

end

/-! ## What findings are told by -/

def FindingCode.text : FindingCode → String
  | .DOCKER_FIREWALL_BYPASS => "DOCKER_FIREWALL_BYPASS"
  | .SENSITIVE_PORT_EXPOSED => "SENSITIVE_PORT_EXPOSED"
  | .PORT_EXPOSED => "PORT_EXPOSED"
  | .NO_HOST_FIREWALL => "NO_HOST_FIREWALL"
  | .FIREWALL_INACTIVE => "FIREWALL_INACTIVE"
  | .SENSITIVE_PORT_WILDCARD_BIND => "SENSITIVE_PORT_WILDCARD_BIND"
  | .SENSITIVE_PORT_LAN => "SENSITIVE_PORT_LAN"
  | .STALE_FIREWALL_RULE => "STALE_FIREWALL_RULE"
  | .STOPPED_SERVICE_PORT_OPEN => "STOPPED_SERVICE_PORT_OPEN"
  | .UNATTRIBUTED_LISTENER => "UNATTRIBUTED_LISTENER"
  | .EXPECTED_PUBLIC => "EXPECTED_PUBLIC"
  | .FIREWALL_STATE_UNKNOWN => "FIREWALL_STATE_UNKNOWN"

def FindingProto.text : FindingProto → String
  | .tcp => "tcp"
  | .udp => "udp"
  | .any => "any"

def findingKey (code : FindingCode) (proto : Option FindingProto) (port : Option Nat) : String :=
  code.text ++ "::" ++ (proto.map FindingProto.text).getD "" ++ "::" ++ (port.map Nat.repr).getD ""

def Finding.key (f : Finding) : String := findingKey f.code f.proto f.port

def findingCodes : List FindingCode := [.DOCKER_FIREWALL_BYPASS, .SENSITIVE_PORT_EXPOSED,
  .PORT_EXPOSED, .NO_HOST_FIREWALL, .FIREWALL_INACTIVE, .SENSITIVE_PORT_WILDCARD_BIND,
  .SENSITIVE_PORT_LAN, .STALE_FIREWALL_RULE, .STOPPED_SERVICE_PORT_OPEN, .UNATTRIBUTED_LISTENER,
  .EXPECTED_PUBLIC, .FIREWALL_STATE_UNKNOWN]

theorem FindingCode.text_injective : Function.Injective FindingCode.text := by
  have hnodup : (findingCodes.map FindingCode.text).Nodup := by decide +kernel
  have hall : ∀ c : FindingCode, c ∈ findingCodes := by
    intro c
    cases c <;> decide
  intro c c' h
  exact List.inj_on_of_nodup_map hnodup (hall c) (hall c') h

theorem FindingProto.text_getD_injective :
    Function.Injective fun proto : Option FindingProto ↦ (proto.map FindingProto.text).getD "" := by
  rintro (_ | _ | _ | _) (_ | _ | _ | _) h
  all_goals first | rfl | exact absurd h (by decide)

theorem repr_getD_injective :
    Function.Injective fun port : Option Nat ↦ (port.map Nat.repr).getD "" := by
  rintro (_ | m) (_ | n) h
  · rfl
  · exact absurd h.symm Nat.repr_ne_empty
  · exact absurd h Nat.repr_ne_empty
  · exact congrArg some (repr_injective h)

theorem splitOn_findingKey (code : FindingCode) (proto : Option FindingProto) (port : Option Nat) :
    (findingKey code proto port).toList.splitOn ':' =
      [code.text.toList, [], ((proto.map FindingProto.text).getD "").toList, [],
        ((port.map Nat.repr).getD "").toList] := by
  have hjoin : (findingKey code proto port).toList = [':'].intercalate [code.text.toList, [],
      ((proto.map FindingProto.text).getD "").toList, [], ((port.map Nat.repr).getD "").toList] := by
    unfold findingKey
    simp [List.intercalate]
  rw [hjoin]
  refine List.splitOn_intercalate ':' ?_ (List.cons_ne_nil _ _)
  intro l hl
  simp only [List.mem_cons, List.not_mem_nil, or_false] at hl
  obtain rfl | rfl | rfl | rfl | rfl := hl
  · cases code <;> decide
  · exact List.not_mem_nil
  · rcases proto with _ | _ | _ | _ <;> decide
  · exact List.not_mem_nil
  · cases port with
    | none => decide
    | some n =>
      intro hmem
      rw [Option.map_some, Option.getD_some, Nat.toList_repr] at hmem
      have hdigit := Nat.isDigit_of_mem_toDigits (by omega) (by omega) hmem
      exact absurd hdigit (by decide)

theorem findingKey_injective {code code' : FindingCode} {proto proto' : Option FindingProto}
    {port port' : Option Nat} (h : findingKey code proto port = findingKey code' proto' port') :
    code = code' ∧ proto = proto' ∧ port = port' := by
  have hsplit := congrArg (fun s ↦ s.toList.splitOn ':') h
  simp only [splitOn_findingKey, List.cons.injEq, and_true, true_and] at hsplit
  obtain ⟨hcode, hproto, hport⟩ := hsplit
  exact ⟨FindingCode.text_injective (String.toList_inj.mp hcode),
    FindingProto.text_getD_injective (String.toList_inj.mp hproto),
    repr_getD_injective (String.toList_inj.mp hport)⟩

end Shellius.Posture
