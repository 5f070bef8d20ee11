import Shellius.Lib.Checks
import Shellius.Lib.Expiring
import Shellius.Net
import Shellius.Policy.Evaluate
import Shellius.Servers.HostKeys

/-!
# Quick Connect tickets

`quickConnectService.createTicket` and `consumeTicket`: a ticket for a host that a user types
in, which names the address to connect to.  Two guards stand before it.  `assertNotProdHost`
refuses what a saved production server is known by, and `assertNotDeniedHost` what a server
is known by that a DENY policy keeps from the user.  Both compare texts.

The resolver is asked once for the typed host and, by the first guard, once for the name of
each production server, with a limit to how long it may take.  What the second lookups found
is cached.
-/

namespace Shellius.QuickConnect

open Lib

/-! ## Rows -/

/-- `Server`, with its name and its address. -/
structure SavedServer extends Server where
  hostname : String := ""
  ipAddress : String := ""

/-- `Credential`, with its owner and its secrets. -/
structure Identity extends HostKeys.StoredCredential where
  id : Id
  orgId : Id
  ownerId : Option Id := none

/-- An entry of `prodDnsCache`. -/
structure CachedAnswer where
  ips : List String
  expires : Millis

/-- `prodDnsCache` -/
abbrev DnsCache := String → Option CachedAnswer

/-- The tables, the tickets in Redis and the cache of the process.  Of an organization's
settings there are `quickConnect.enabled`, if it is set, and what `isVaultEnabled` makes of
them. -/
structure Store where
  db : Database
  servers : List SavedServer
  rows : servers.map SavedServer.toServer = db.servers := by decide
  /-- A `cuid()` is never the empty string. -/
  policyTruthy : ∀ p ∈ db.accessPolicies, p.id ≠ "" := by decide
  identities : List Identity := []
  quickConnectEnabled : Id → Option Bool := fun _ ↦ none
  vaultEnabled : Id → Bool := fun _ ↦ true
  prodDnsCache : DnsCache := fun _ ↦ none
  tickets : Expiring String String Millis := fun _ ↦ none

/-! ## Requests -/

/-- Who is signed in. -/
structure Caller where
  orgId : Id
  userId : Id
  permissions : List String
  signedIn : orgId ≠ "" ∧ userId ≠ "" := by decide

def has (user : Caller) (key : String) : Bool := key ∈ user.permissions

/-- The `auth` of a request. -/
structure AuthSpec where
  type : String
  password : Option String := none
  privateKey : Option String := none
  passphrase : Option String := none
  credentialId : Option Id := none
deriving DecidableEq

structure TicketBody where
  host : String
  port : Option Int := none
  username : Option String := none
  auth : Option AuthSpec
  expectedHostKey : Option String := none

/-- Through which feature a ticket is asked for. -/
inductive Via where
  | quickConnect | personalHost
deriving DecidableEq

structure Payload where
  orgId : Id
  userId : Id
  host : String
  resolvedIp : String
  port : Int
  username : Option String
  auth : AuthSpec
  expectedHostKey : Option String
  via : Via
  personalHostId : Option Id
deriving DecidableEq

/-- What `dns.lookup` comes to, and how long it takes. -/
structure DnsAnswer where
  records : Except String (List String)
  after : Millis

/-- What the service relies on: the runtime's lower case and the database's comparison
regardless of case, the resolver, the flag for loopback targets, `normalizePrivateKey`, and
`encrypt(JSON.stringify(payload))` with its inverse. -/
structure Services where
  toLowerCase : String → String
  equalsInsensitive : String → String → Bool
  dns : String → DnsAnswer
  loopbackAllowed : Bool
  normalizePrivateKey : String → Option String → Except ApiError String
  decrypt : String → String
  encode : Payload → Except ApiError String
  decode : String → Option Payload
  decode_encode : ∀ {p text}, encode p = .ok text → decode text = some p

/-- The addresses a lookup comes to; a failed one comes to none. -/
def DnsAnswer.addresses (a : DnsAnswer) : List String :=
  match a.records with
  | .ok ips => ips
  | .error _ => []

/-- A lookup that may take no longer than `limit`. -/
def DnsAnswer.within (limit : Millis) (timeout : String) (a : DnsAnswer) :
    Except String (List String) :=
  if a.after ≤ limit then a.records else .error timeout

/-! ## Hosts -/

/-- A character of `[a-zA-Z0-9]`. -/
def isAlphanumeric (c : Char) : Bool :=
  isDecimal c ∨ ('a' ≤ c ∧ c ≤ 'z') ∨ ('A' ≤ c ∧ c ≤ 'Z')

/-- `[a-zA-Z0-9](?:[a-zA-Z0-9-]{0,61}[a-zA-Z0-9])?` -/
def isHostLabel (cs : List Char) : Bool :=
  cs ≠ [] ∧ cs.length ≤ 63 ∧ cs.all (fun c ↦ isAlphanumeric c ∨ c = '-') ∧
    cs.head?.all isAlphanumeric ∧ cs.getLast?.all isAlphanumeric

def isValidHost (host : String) : Bool :=
  if host = "" ∨ host.toList.any isSpace then false
  else if isIP host ≠ 0 then true
  else (host.toList.splitOn '.').all isHostLabel ∧ utf16Length host ≤ 253

/-- `USERNAME_RE` -/
def isUsername (username : String) : Bool :=
  1 ≤ username.toList.length ∧ username.toList.length ≤ 64 ∧
    username.toList.all fun c ↦ isAlphanumeric c ∨ c = '.' ∨ c = '_' ∨ c = '-'

inductive IpClass where
  | loopback | unspecified | linklocal | multicast | privateRange | publicRange
deriving DecidableEq

def IpClass.text : IpClass → String
  | .loopback => "loopback"
  | .unspecified => "unspecified"
  | .linklocal => "linklocal"
  | .multicast => "multicast"
  | .privateRange => "private"
  | .publicRange => "public"

/-- `classifyIp` of an IPv4 address. -/
def classifyIPv4 (cs : List Char) : IpClass :=
  match (cs.splitOn '.').map decimalValue with
  | [a, b, c, d] =>
    if a = 127 then .loopback
    else if a = 0 then .unspecified
    else if a = 169 ∧ b = 254 then .linklocal
    else if 224 ≤ a ∧ a ≤ 239 then .multicast
    else if a = 255 ∧ b = 255 ∧ c = 255 ∧ d = 255 then .multicast
    else if a = 10 then .privateRange
    else if a = 172 ∧ 16 ≤ b ∧ b ≤ 31 then .privateRange
    else if a = 192 ∧ b = 168 then .privateRange
    else .publicRange
  | _ => .publicRange

/-- `classifyIp` of an IPv6 address, in lower case. -/
def classifyIPv6 (lower : List Char) : IpClass :=
  if lower = "::".toList ∨ lower = "0:0:0:0:0:0:0:0".toList then .unspecified
  else if lower = "::1".toList ∨ lower = "0:0:0:0:0:0:0:1".toList then .loopback
  else if "::ffff:".toList <+: lower ∧ isIPv4Chars (lower.drop 7) then classifyIPv4 (lower.drop 7)
  else if ["fe8", "fe9", "fea", "feb"].any fun s ↦ s.toList <+: lower then .linklocal
  else if "ff".toList <+: lower then .multicast
  else if "fc".toList <+: lower ∨ "fd".toList <+: lower then .privateRange
  else .publicRange

def classifyIp (ip : String) : IpClass :=
  if isIP ip = 4 then classifyIPv4 ip.toList
  else if isIP ip = 6 then classifyIPv6 (ip.toList.map Char.toLower)
  else .publicRange

/-- What `resolveTarget` returns. -/
structure Target where
  hostname : String
  ip : String
  addresses : List String

section

variable (env : Services)

/-- Whether `resolveTarget` lets an address pass. -/
def targetAllowed (address : String) : Bool :=
  (classifyIp address = .loopback ∧ env.loopbackAllowed) ∨ classifyIp address = .publicRange ∨
    classifyIp address = .privateRange

/-- `TARGET_DNS_TIMEOUT_MS` -/
def targetDnsTimeout : Millis := 8000

def targetRecords (host : String) : Except String (List String) :=
  if isIP host ≠ 0 then .ok [host]
  else (env.dns host).within targetDnsTimeout "DNS lookup timed out"

def resolveTarget (host : String) : Except ApiError Target :=
  if host = "" then .error ⟨400, "host is required", none⟩
  else match targetRecords env host with
    | .error e =>
      .error ⟨400, "Could not resolve host \"" ++ host ++ "\": " ++ e, some "DNS_RESOLUTION_FAILED"⟩
    | .ok [] =>
      .error ⟨400, "Could not resolve host \"" ++ host ++ "\"", some "DNS_RESOLUTION_FAILED"⟩
    | .ok (ip :: others) =>
      match (ip :: others).find? fun a ↦ !targetAllowed env a with
      | some a =>
        .error ⟨403, "Target host \"" ++ host ++ "\" resolves to a disallowed address (" ++ a ++
          " — " ++ (classifyIp a).text ++ ").", some "TARGET_NOT_ALLOWED"⟩
      | none => .ok ⟨host, ip, ip :: others⟩

end

/-! ## The guards -/

/-- The refusal of a production server. -/
def prodHostError (message : String) : ApiError :=
  ⟨403, message ++ " — use the access request flow instead of Quick Connect.",
    some "PROD_HOST_REQUIRES_APPROVAL"⟩

section

variable (env : Services) (now : Millis)

/-- `PROD_DNS_TIMEOUT_MS` -/
def prodDnsTimeout : Millis := 2000

/-- `PROD_DNS_TTL_MS`, or `PROD_DNS_NEGATIVE_TTL_MS` if nothing was found. -/
def prodDnsTtl (ips : List String) : Millis := if ips = [] then 60 * 1000 else 5 * 60 * 1000

/-- What a lookup of a production server's name finds; a failure is tolerated. -/
def lookupProdHostname (hostname : String) : List String :=
  match (env.dns hostname).within prodDnsTimeout "timed out after 2000ms" with
  | .ok ips => ips
  | .error _ => []

def resolveProdHostname (cache : DnsCache) (hostname : String) : List String × DnsCache :=
  match cache hostname with
  | some cached =>
    if now < cached.expires then (cached.ips, cache)
    else
      let ips := lookupProdHostname env hostname
      (ips, Function.update cache hostname (some ⟨ips, now + prodDnsTtl ips⟩))
  | none =>
    let ips := lookupProdHostname env hostname
    (ips, Function.update cache hostname (some ⟨ips, now + prodDnsTtl ips⟩))

def resolveProdHostnames (cache : DnsCache) : List String → List (String × List String) × DnsCache
  | [] => ([], cache)
  | h :: rest =>
    let (ips, cache) := resolveProdHostname env now cache h
    let (entries, cache) := resolveProdHostnames cache rest
    ((h, ips) :: entries, cache)

/-- `resolveHostname` of `assertNotProdHost` -/
def resolveHostname (entries : List (String × List String)) (hostname : String) : List String :=
  if isIP hostname ≠ 0 then [hostname] else (entries.lookup hostname).getD []

/-- The servers `assertNotProdHost` reads. -/
def prodServers (s : Store) (orgId : Id) : List SavedServer :=
  s.servers.filter fun srv ↦ srv.orgId = orgId ∧ srv.environment = .prod

def prodHostnames (servers : List SavedServer) : List String :=
  ((servers.map SavedServer.hostname).filter fun h ↦ h ≠ "" ∧ isIP h = 0).eraseDups

/-- A server is known by the text that was typed in. -/
def SavedServer.isCalled (host : String) (srv : SavedServer) : Bool :=
  (srv.ipAddress ≠ "" ∧ srv.ipAddress = host) ∨
    (srv.hostname ≠ "" ∧ env.toLowerCase srv.hostname = env.toLowerCase host)

/-- `assertNotProdHost`, and the cache after it. -/
def assertNotProdHost (s : Store) (orgId : Id) (host : String) (resolvedIps : List String) :
    Except ApiError Unit × DnsCache :=
  let servers := prodServers s orgId
  if servers = [] then (.ok (), s.prodDnsCache)
  else if servers.any (SavedServer.isCalled env host) then
    (.error (prodHostError "This host is a production server"), s.prodDnsCache)
  else if resolvedIps = [] then (.ok (), s.prodDnsCache)
  else if servers.any fun srv ↦ srv.ipAddress ≠ "" ∧ srv.ipAddress ∈ resolvedIps then
    (.error (prodHostError "This host resolves to a production server"), s.prodDnsCache)
  else
    let (entries, cache) := resolveProdHostnames env now s.prodDnsCache (prodHostnames servers)
    if servers.any fun srv ↦ srv.hostname ≠ "" ∧
        (resolveHostname entries srv.hostname).any fun ip ↦ ip ∈ resolvedIps then
      (.error (prodHostError "This host resolves to a production server"), cache)
    else (.ok (), cache)

/-- The servers `assertNotDeniedHost` reads: those with one of the texts for an address or a
name, but no more than twenty. -/
def deniedCandidates (s : Store) (orgId : Id) (candidates : List String) : List SavedServer :=
  (s.servers.filter fun srv ↦ srv.orgId = orgId ∧
    (srv.ipAddress ∈ candidates ∨ candidates.any (env.equalsInsensitive srv.hostname))).take 20

/-- `!result.allowed && result.policyId && /^Denied by policy/.test(result.reason || '')` -/
def isDenial (result : Evaluation) : Bool :=
  !result.allowed ∧ truthy result.policyId ≠ none ∧
    "Denied by policy".toList <+: (result.reason.getD "").toList

/-- The loop of `assertNotDeniedHost`. -/
def checkDenied (db : Database) (orgId userId : Id) : List SavedServer → Except ApiError Unit
  | [] => .ok ()
  | srv :: rest => do
      let result ← evaluate db { orgId, userId, serverId := srv.id }
      require (¬ isDenial result)
        ⟨403, "A policy denies you access to " ++ srv.hostname, some "QUICK_CONNECT_DENIED_BY_POLICY"⟩
      checkDenied db orgId userId rest

def assertNotDeniedHost (s : Store) (orgId userId : Id) (host : String)
    (resolvedIps : List String) : Except ApiError Unit :=
  checkDenied s.db orgId userId (deniedCandidates env s orgId (host :: resolvedIps))

/-! ## Tickets -/

/-- `TICKET_TTL_SECONDS`, in milliseconds. -/
def ticketTtl : Millis := 60 * 1000

def ticketKey (ticket : String) : String := "qc:ticket:" ++ ticket

def checkFeature (s : Store) (user : Caller) : Via → Except ApiError Unit
  | .personalHost => do
      require (s.vaultEnabled user.orgId)
        ⟨403, "The personal vault is turned off for this organization", some "VAULT_DISABLED"⟩
      require (has user "vault.hosts")
        ⟨403, "Your role does not permit My hosts", some "PERMISSION_DENIED"⟩
  | .quickConnect => do
      require ((s.quickConnectEnabled user.orgId).getD true)
        ⟨403, "Quick Connect is disabled for this organization", some "QUICK_CONNECT_DISABLED"⟩
      require (has user "quick_connect.use")
        ⟨403, "Your role does not permit Quick Connect", some "QUICK_CONNECT_FORBIDDEN"⟩

def validateAuthShape : Option AuthSpec → Except ApiError AuthSpec
  | none => .error ⟨400, "auth is required", none⟩
  | some auth => do
      if auth.type = "password" then
        require (truthy auth.password ≠ none)
          ⟨400, "auth.password is required for auth.type \"password\"", none⟩
      else if auth.type = "key" then
        require (truthy auth.privateKey ≠ none)
          ⟨400, "auth.privateKey is required for auth.type \"key\"", none⟩
      else if auth.type = "credential" then
        require (truthy auth.credentialId ≠ none)
          ⟨400, "auth.credentialId is required for auth.type \"credential\"", none⟩
      else .error ⟨400, "auth.type must be one of: password, key, credential", none⟩
      pure auth

def findUsableCredential (s : Store) (orgId userId : Id) (credentialId : Id) : Option Identity :=
  s.identities.find? fun c ↦ c.id = credentialId ∧ c.orgId = orgId ∧
    (c.ownerId = none ∨ c.ownerId = some userId)

/-- The refusal of a stored identity. -/
def identityError (what : String) : ApiError :=
  ⟨403, "Your role does not permit using " ++ what, some "QUICK_CONNECT_FORBIDDEN"⟩

def chooseAuth (s : Store) (user : Caller) (username : Option String) (auth : AuthSpec) :
    Except ApiError (Option String × AuthSpec) := do
  if auth.type = "credential" then
    let cred ← demand (findUsableCredential s user.orgId user.userId (auth.credentialId.getD ""))
      ⟨404, "auth.credentialId not found in organization", none⟩
    if truthy cred.ownerId ≠ none then
      require (s.vaultEnabled user.orgId ∧ has user "vault.use")
        (identityError "your personal vault")
    else
      require (has user "quick_connect.use_stored_identity")
        (identityError "stored identities in Quick Connect")
    pure (some ((truthy username).getD cred.username), auth)
  else
    require ((truthy username).any isUsername)
      ⟨400, "username is required and must be a valid SSH username", none⟩
    if auth.type = "key" then
      let normalized ← env.normalizePrivateKey (auth.privateKey.getD "") auth.passphrase
      pure (truthy username, { auth with privateKey := some normalized })
    else pure (truthy username, auth)

/-- `port || 22` -/
def effectivePort (body : TicketBody) : Int :=
  if body.port.getD 0 = 0 then 22 else body.port.getD 0

/-- What `createTicket` checks before it resolves the host. -/
def checkRequest (s : Store) (user : Caller) (body : TicketBody) (via : Via) :
    Except ApiError (Option String × AuthSpec) := do
  checkFeature s user via
  require (isValidHost body.host)
    ⟨400, "host must be a valid hostname, IPv4, or IPv6 address", none⟩
  require (1 ≤ effectivePort body ∧ effectivePort body ≤ 65535)
    ⟨400, "port must be between 1 and 65535", none⟩
  let auth ← validateAuthShape body.auth
  chooseAuth env s user body.username auth

def payload (user : Caller) (body : TicketBody) (via : Via) (personalHostId : Option Id)
    (chosen : Option String × AuthSpec) (resolved : Target) : Payload where
  orgId := user.orgId
  userId := user.userId
  host := body.host
  resolvedIp := resolved.ip
  port := effectivePort body
  username := chosen.1
  auth := chosen.2
  expectedHostKey := truthy body.expectedHostKey
  via := via
  personalHostId := personalHostId

/-- `createTicket`, with the ticket that `crypto.randomBytes` gives. -/
def createTicket (s : Store) (user : Caller) (body : TicketBody) (via : Via)
    (personalHostId : Option Id) (ticket : String) : Except ApiError String × Store :=
  match (do
    let chosen ← checkRequest env s user body via
    let resolved ← resolveTarget env body.host
    pure (chosen, resolved)) with
  | .error e => (.error e, s)
  | .ok (chosen, resolved) =>
    let prod := assertNotProdHost env now s user.orgId body.host resolved.addresses
    let s := { s with prodDnsCache := prod.2 }
    match (do
      prod.1
      assertNotDeniedHost env s user.orgId user.userId body.host resolved.addresses
      env.encode (payload user body via personalHostId chosen resolved)) with
    | .error e => (.error e, s)
    | .ok text =>
      (.ok ticket,
        { s with tickets := s.tickets.set (ticketKey ticket) text (some (now + ticketTtl)) })

/-- What `consumeTicket` returns. -/
structure Connect where
  host : String
  port : Int
  username : Option String
  password : Option String
  privateKey : Option String
  passphrase : Option String
  certificate : Option String
  expectedFingerprint : Option String
  displayHost : String
  authType : String
  credentialId : Option Id
  rawAuth : AuthSpec
  via : Via
  personalHostId : Option Id

def Payload.connect (p : Payload) (username : Option String) (auth : HostKeys.AuthOpts) :
    Connect where
  host := (truthy (some p.resolvedIp)).getD p.host
  port := p.port
  username := username
  password := truthy auth.password
  privateKey := truthy auth.privateKey
  passphrase := auth.passphrase
  certificate := auth.certificate
  expectedFingerprint := truthy p.expectedHostKey
  displayHost := p.host
  authType := p.auth.type
  credentialId := if p.auth.type = "credential" then p.auth.credentialId else none
  rawAuth := p.auth
  via := p.via
  personalHostId := p.personalHostId

/-- The options of a connection, by the kind of its secrets. -/
def redeem (s : Store) (userId orgId : Id) (p : Payload) : Except ApiError Connect :=
  if p.auth.type = "password" then
    .ok (p.connect p.username { username := "", password := p.auth.password })
  else if p.auth.type = "key" then
    .ok (p.connect p.username
      { username := "", password := p.auth.password, privateKey := p.auth.privateKey
        passphrase := truthy p.auth.passphrase })
  else if p.auth.type = "credential" then
    match findUsableCredential s orgId userId (p.auth.credentialId.getD "") with
    | none => .error ⟨404, "The identity used for this Quick Connect no longer exists", none⟩
    | some cred =>
      let opts := HostKeys.resolveCredentialAuth env.decrypt cred.toStoredCredential
      .ok (p.connect (some ((truthy p.username).getD cred.username))
        { opts with
          passphrase := (truthy opts.privateKey).bind fun _ ↦ opts.passphrase
          certificate := cred.sshKey.bind fun k ↦ truthy k.certificate })
  else .ok (p.connect none { username := "" })

def consumeTicket (s : Store) (ticket : String) (userId orgId : Id) :
    Except ApiError Connect × Store :=
  if ticket = "" then (.error ⟨400, "ticket is required", none⟩, s)
  else match s.tickets.get now (ticketKey ticket) with
    | none =>
      (.error ⟨410, "Quick Connect ticket is invalid or has expired", some "TICKET_EXPIRED"⟩, s)
    | some raw =>
      let s := { s with tickets := s.tickets.del (ticketKey ticket) }
      match env.decode raw with
      | none => (.error ⟨400, "Quick Connect ticket could not be decoded", none⟩, s)
      | some p =>
        if p.userId ≠ userId ∨ p.orgId ≠ orgId then
          (.error ⟨403, "This Quick Connect ticket does not belong to your session", none⟩, s)
        else (redeem env s userId orgId p, s)

end

end Shellius.QuickConnect
