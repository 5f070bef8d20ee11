import Shellius.Lib.Throttle
import Shellius.Posture.Ingest
import Shellius.Tenancy

/-!
# Alerts

`postureAlertService.dispatchFindingEvents`: what happens to the findings of a server is told to
the people whom the alert rules of its organization name, over the channels that the rules name.
A rule may be throttled, and then tells of a finding once in a while only.

What a call tells does not depend on which of its deliveries succeed
(`dispatchFindingEvents_told`): it is what passes the throttles (`Lib.Throttle`) of what the rules
ask for (`offered`).
-/

namespace Shellius

def Environment.key : Environment → String
  | .demo => "demo"
  | .dev => "dev"
  | .staging => "staging"
  | .prod => "prod"

namespace Posture

open Lib

def Severity.text : Severity → String
  | .INFO => "INFO"
  | .LOW => "LOW"
  | .MEDIUM => "MEDIUM"
  | .HIGH => "HIGH"
  | .CRITICAL => "CRITICAL"

namespace Alerts

/-! ## What is stored -/

/-- `Server`, with its names. -/
structure HostServer extends Server where
  hostname : String := ""
  displayName : Option String := none
deriving DecidableEq

structure FindingRow extends ExposureFinding where
  orgId : Id
  serverId : Id
  mutedUntil : Option Millis := none
deriving DecidableEq

inductive Channel where
  | inapp | email | chat
deriving DecidableEq

inductive Mode where
  | immediate | digest
deriving DecidableEq

structure PostureAlertRule where
  id : Id
  orgId : Id
  name : String := ""
  isActive : Bool := true
  severities : List Severity := []
  codes : List String := []
  customerIds : List Id := []
  environments : List Environment := []
  recipientRoles : List String := []
  recipientGroupId : Option Id := none
  recipientUserIds : List Id := []
  channels : List Channel := [.inapp]
  mode : Mode := .immediate
  notifyOnResolve : Bool := false
  throttleMinutes : Int := 0
  escalateAfterHours : Option Int := none
  escalateToGroupId : Option Id := none
deriving DecidableEq

/-- The place of a finding: no two rows have the same server, code, protocol and port. -/
def FindingRow.place (f : FindingRow) : Id × String := (f.serverId, f.key)

structure Store where
  tenancy : Tenancy := {}
  servers : Keyed (fun s : HostServer ↦ s.id) := .empty
  rules : Keyed PostureAlertRule.id := .empty
  findings : Keyed FindingRow.place := .empty

/-! ## Events -/

inductive EventType where
  | opened
  | reopened
  | severity_increased (was : Severity)
  | resolved
  | escalation
deriving DecidableEq

structure AlertEvent where
  type : EventType
  finding : Finding

def ofIngest : FindingEvent → AlertEvent
  | .opened f => ⟨.opened, f⟩
  | .reopened f => ⟨.reopened, f⟩
  | .severity_increased f was => ⟨.severity_increased was, f⟩
  | .resolved f => ⟨.resolved, f⟩

/-- `ruleMatches`; what a rule leaves empty is any. -/
def ruleMatches (rule : PostureAlertRule) (finding : Finding) (server : HostServer) : Bool :=
  rule.isActive &&
    (rule.severities.isEmpty || rule.severities.contains finding.severity) &&
    (rule.codes.isEmpty || rule.codes.contains finding.code.text) &&
    (rule.customerIds.isEmpty || rule.customerIds.contains server.customerId) &&
    (rule.environments.isEmpty || rule.environments.contains server.environment)

def ruleWantsEvent (rule : PostureAlertRule) : EventType → Bool
  | .resolved => rule.notifyOnResolve
  | _ => true

/-! ## Recipients -/

/-- `TIERS` -/
def tiers : List String := ["member", "manager", "admin", "super_admin"]

section

variable (db : Store)

/-- The filters of `resolveRecipients`, of which one has to hold. -/
def orFilters (rule : PostureAlertRule) (escalating : Bool) (u : ScopedUser) : Bool :=
  (!rule.recipientUserIds.isEmpty && rule.recipientUserIds.contains u.id) ||
  (!rule.recipientRoles.isEmpty &&
    ((rule.recipientRoles.filter tiers.contains).contains u.role.key ||
      (db.tenancy.assignedRole u).any fun r ↦ rule.recipientRoles.contains r.key)) ||
  rule.recipientGroupId.any (fun g ↦ db.tenancy.groupMemberships.contains ⟨g, u.id⟩) ||
  (escalating &&
    rule.escalateToGroupId.any fun g ↦ db.tenancy.groupMemberships.contains ⟨g, u.id⟩)

def resolveRecipients (orgId : Id) (rule : PostureAlertRule) (escalating : Bool) :
    List ScopedUser :=
  db.tenancy.users.rows.filter fun u ↦
    u.orgId == orgId && u.status == .active && u.deletedAt.isNone && u.kind == .human &&
      orFilters db rule escalating u

def filterByScope (recipients : List ScopedUser) (server : HostServer) : List ScopedUser :=
  recipients.filter fun u ↦ inScope (db.tenancy.resolveScope u) server.toServer

end

/-! ## Messages -/

/-- `server.displayName || server.hostname` -/
def HostServer.host (server : HostServer) : String :=
  (server.displayName.filter (· ≠ "")).getD server.hostname

/-- The first word of a title. -/
def AlertEvent.lead (event : AlertEvent) : String :=
  match event.type with
  | .resolved => "Resolved"
  | .severity_increased was =>
    "Escalated (" ++ was.text ++ " → " ++ event.finding.severity.text ++ ")"
  | .escalation => "Still open"
  | .opened | .reopened => "New"

def shownPort (finding : Finding) : Option Nat := finding.port.filter (· ≠ 0)

/-- `describe`, the title -/
def describe (event : AlertEvent) (server : HostServer) : String :=
  let place := (event.finding.proto.map FindingProto.text).getD "" ++
    ((shownPort event.finding).map fun p ↦ "/" ++ p.repr).getD ""
  event.lead ++ ": " ++ event.finding.code.text ++ (if place = "" then "" else " " ++ place) ++
    " on " ++ server.host

def EventType.text : EventType → String
  | .opened => "opened"
  | .reopened => "reopened"
  | .severity_increased _ => "severity_increased"
  | .resolved => "resolved"
  | .escalation => "escalation"

structure Metadata where
  serverId : Id
  code : String
  severity : Severity
  proto : Option FindingProto
  port : Option Nat
  ruleId : Id
  event : String
deriving DecidableEq

/-- One attempt to tell somebody. -/
inductive Delivery where
  | /-- `notificationService.create`, for the user's id -/
    inapp (user : ScopedUser) (title body : String) (metadata : Metadata)
  | /-- `mailer.sendMail`, to the user's address -/
    email (user : ScopedUser) (subject text : String)
  | /-- `notifyEvent`, for the chat only -/
    chat (orgId : Id) (title body : String) (fields : List (String × String)) (path : String)
      (environment : Environment) (customerId : Id)
deriving DecidableEq

/-- A rule tells of an event. -/
structure Notice where
  rule : PostureAlertRule
  server : HostServer
  event : AlertEvent
  now : Millis
  recipients : List ScopedUser

namespace Notice

variable (n : Notice)

def chat : Delivery :=
  let finding := n.event.finding
  .chat n.rule.orgId (describe n.event n.server) finding.message
    ([("Server", n.server.host), ("Environment", n.server.environment.key),
      ("Severity", finding.severity.text.map Char.toLower), ("Finding", finding.code.text)] ++
      ((shownPort finding).map fun p ↦
        ("Port", (finding.proto.map FindingProto.text).getD "tcp" ++ "/" ++ p.repr)).toList ++
      [("Rule", n.rule.name)])
    ("/servers/" ++ n.server.id) n.server.environment n.server.customerId

def inapp (user : ScopedUser) : Delivery :=
  let finding := n.event.finding
  .inapp user (describe n.event n.server) finding.message
    ⟨n.server.id, finding.code.text, finding.severity, finding.proto, finding.port, n.rule.id,
      n.event.type.text⟩

def email (user : ScopedUser) : Delivery :=
  .email user ("[Shellius] " ++ describe n.event n.server)
    (n.event.finding.message ++ "\n\nServer: " ++ n.server.host ++ " (" ++
      n.server.environment.key ++ ")\nRule: " ++ n.rule.name)

/-- What is tried for a recipient. -/
def personal (user : ScopedUser) : List Delivery :=
  (if .inapp ∈ n.rule.channels then [n.inapp user] else []) ++
    if .email ∈ n.rule.channels ∧ n.rule.mode ≠ .digest then [n.email user] else []

/-- What is tried altogether. -/
def deliveries : List Delivery :=
  (if .chat ∈ n.rule.channels then [n.chat] else []) ++ n.recipients.flatMap n.personal

def key : Id × Id × String := (n.rule.id, n.server.id, n.event.finding.key)

/-- The key that a notice takes, and until when. -/
def lock : Option ((Id × Id × String) × Millis) :=
  if n.rule.throttleMinutes ≤ 0 then none
  else some (n.key, n.now + n.rule.throttleMinutes * 60 * 1000)

end Notice

/-! ## Dispatch

Whether a delivery works may depend on all that was tried before. -/

/-- The claims in Redis, who has been told of what, and what has been tried and if it worked. -/
structure State where
  redis : Expiring (Id × Id × String) Unit Millis := fun _ ↦ none
  notices : List Notice := []
  attempts : List (Delivery × Bool) := []

/-- What `dispatchFindingEvents` returns. -/
structure Result where
  sent : Nat := 0
  skipped : Nat := 0

/-- A call on its way. -/
structure Dispatch extends State, Result

def throttled (n : Notice) (redis : Expiring (Id × Id × String) Unit Millis) :
    Bool × Expiring (Id × Id × String) Unit Millis :=
  if n.rule.throttleMinutes ≤ 0 then (false, redis)
  else if (redis.get n.now n.key).isSome then (true, redis)
  else (false, redis.set n.key () (some (n.now + n.rule.throttleMinutes * 60 * 1000)))

section

variable (works : List (Delivery × Bool) → Delivery → Bool)

/-- A delivery is tried; that it fails is logged. -/
def attempt (s : Dispatch) (d : Delivery) : Dispatch :=
  { s with
    attempts := s.attempts ++ [(d, works s.attempts d)]
    sent := match d, works s.attempts d with
      | .inapp .., true => s.sent + 1
      | _, _ => s.sent }

/-- The inner loop, for one recipient. -/
def tell (n : Notice) (s : Dispatch) (user : ScopedUser) : Dispatch :=
  let s := if .inapp ∈ n.rule.channels then attempt works s (n.inapp user) else s
  if .email ∈ n.rule.channels ∧ n.rule.mode ≠ .digest then attempt works s (n.email user) else s

/-- A notice goes to the chat and to each recipient. -/
def deliver (n : Notice) (s : Dispatch) : Dispatch :=
  n.recipients.foldl (tell works n)
    (if .chat ∈ n.rule.channels then attempt works s n.chat else s)

variable (db : Store) (now : Millis)

def noticeOf (server : HostServer) (event : AlertEvent) (rule : PostureAlertRule) : Notice :=
  ⟨rule, server, event, now,
    filterByScope db (resolveRecipients db rule.orgId rule (event.type = .escalation)) server⟩

def dispatchRule (server : HostServer) (event : AlertEvent) (s : Dispatch)
    (rule : PostureAlertRule) : Dispatch :=
  if !ruleWantsEvent rule event.type then s
  else if !ruleMatches rule event.finding server then s
  else
    let n := noticeOf db now server event rule
    let (hit, redis) := throttled n s.redis
    if hit then { s with redis, skipped := s.skipped + 1 }
    else deliver works n { s with redis, notices := s.notices ++ [n] }

def mutedKeys (orgId serverId : Id) : List String :=
  (db.findings.rows.filter fun f ↦
    f.orgId = orgId ∧ f.serverId = serverId ∧ ∃ t ∈ f.mutedUntil, now < t).map fun f ↦ f.key

def activeRules (orgId : Id) : List PostureAlertRule :=
  db.rules.rows.filter fun rule ↦ rule.orgId = orgId ∧ rule.isActive = true

def dispatchEvent (orgId : Id) (server : HostServer) (s : Dispatch) (event : AlertEvent) :
    Dispatch :=
  if event.finding.key ∈ mutedKeys db now orgId server.id then { s with skipped := s.skipped + 1 }
  else (activeRules db orgId).foldl (dispatchRule works db now server event) s

/-- `prisma.server.findFirst({ where: { id: serverId, orgId } })` -/
def findServer (orgId serverId : Id) : Option HostServer :=
  (db.servers.find serverId).filter fun s ↦ s.orgId = orgId

def dispatchFindingEvents (orgId serverId : Id) (events : List AlertEvent) (s : State) :
    State × Result :=
  match findServer db orgId serverId, activeRules db orgId with
  | none, _ | _, [] => (s, {})
  | some server, _ =>
    let d := events.foldl (dispatchEvent works db now orgId server) ⟨s, {}⟩
    (d.toState, d.toResult)

end

/-! ## What a call tells -/

def State.gate (s : State) : Gate Notice (Id × Id × String) Millis := ⟨s.redis, s.notices⟩

/-- From one state to another it has been tried to tell of what passed of some notices. -/
structure Told (s s' : State) (ns : List Notice) : Prop where
  gate : s'.gate = s.gate.offers Notice.lock Notice.now ns
  attempts : s'.attempts.map Prod.fst =
    s.attempts.map Prod.fst ++ (s.gate.passing Notice.lock Notice.now ns).flatMap Notice.deliveries

namespace Told

variable {s s' s'' : State} {ns ns' : List Notice}

theorem refl : Told s s [] := ⟨rfl, (List.append_nil _).symm⟩

theorem trans (h : Told s s' ns) (h' : Told s' s'' ns') : Told s s'' (ns ++ ns') where
  gate := by rw [Gate.offers_append, ← h.gate, h'.gate]
  attempts := by
    rw [h'.attempts, h.attempts, Gate.passing_append, List.flatMap_append, List.append_assoc,
      ← h.gate]

theorem foldl {α β : Type} (state : β → State) {f : β → α → β} {g : α → List Notice}
    {l : List α} {b : β} (h : ∀ b a, a ∈ l → Told (state b) (state (f b a)) (g a)) :
    Told (state b) (state (l.foldl f b)) (l.flatMap g) := by
  induction l generalizing b with
  | nil => exact refl
  | cons a l ih =>
    have hhead := h b a List.mem_cons_self
    have htail := ih (b := f b a) fun b a ha ↦ h b a (List.mem_cons_of_mem _ ha)
    exact hhead.trans htail

end Told

section

variable {works : List (Delivery × Bool) → Delivery → Bool} {db : Store} {now : Millis}
  {n : Notice} {s s' : State} {d : Dispatch}

theorem attempt_attempts {m : Delivery} :
    (attempt works d m).attempts.map Prod.fst = d.attempts.map Prod.fst ++ [m] := by
  show (d.attempts ++ [(m, works d.attempts m)]).map Prod.fst = _
  rw [List.map_append, List.map_singleton]

theorem tell_gate {user : ScopedUser} : (tell works n d user).gate = d.gate := by
  unfold tell
  split <;> split <;> rfl

theorem tell_attempts {user : ScopedUser} :
    (tell works n d user).attempts.map Prod.fst = d.attempts.map Prod.fst ++ n.personal user := by
  unfold tell Notice.personal
  by_cases hin : Channel.inapp ∈ n.rule.channels
  · by_cases hmail : Channel.email ∈ n.rule.channels ∧ n.rule.mode ≠ .digest
    · simp only [if_pos hin, if_pos hmail, attempt_attempts, List.append_assoc]
    · simp only [if_pos hin, if_neg hmail, attempt_attempts, List.append_nil]
  · by_cases hmail : Channel.email ∈ n.rule.channels ∧ n.rule.mode ≠ .digest
    · simp only [if_neg hin, if_pos hmail, attempt_attempts, List.nil_append]
    · simp only [if_neg hin, if_neg hmail, List.append_nil]

theorem foldl_tell (works : List (Delivery × Bool) → Delivery → Bool) (n : Notice)
    (users : List ScopedUser) (d : Dispatch) :
    (users.foldl (tell works n) d).gate = d.gate ∧
      (users.foldl (tell works n) d).attempts.map Prod.fst =
        d.attempts.map Prod.fst ++ users.flatMap n.personal := by
  induction users generalizing d with
  | nil => exact ⟨rfl, (List.append_nil _).symm⟩
  | cons user users ih =>
    obtain ⟨hgate, hattempts⟩ := ih (tell works n d user)
    refine ⟨hgate.trans tell_gate, ?_⟩
    rw [List.foldl_cons, hattempts, tell_attempts, List.flatMap_cons, List.append_assoc]

theorem deliver_spec (works : List (Delivery × Bool) → Delivery → Bool) (n : Notice)
    (d : Dispatch) : (deliver works n d).gate = d.gate ∧
    (deliver works n d).attempts.map Prod.fst = d.attempts.map Prod.fst ++ n.deliveries := by
  unfold deliver Notice.deliveries
  by_cases hchat : Channel.chat ∈ n.rule.channels
  · simp only [if_pos hchat]
    obtain ⟨hgate, hattempts⟩ := foldl_tell works n n.recipients (attempt works d n.chat)
    refine ⟨hgate, ?_⟩
    rw [hattempts, attempt_attempts, List.append_assoc]
  · simp only [if_neg hchat]
    exact foldl_tell works n n.recipients d

theorem throttled_spec (n : Notice) (s : State) :
    (throttled n s.redis).1 = !decide (Gate.Open Notice.lock Notice.now s.gate n) ∧
      (throttled n s.redis).2 = (s.gate.offer Notice.lock Notice.now n).store := by
  unfold throttled
  by_cases hzero : n.rule.throttleMinutes ≤ 0
  · have hlock : n.lock = none := if_pos hzero
    have hopen : Gate.Open Notice.lock Notice.now s.gate n := Gate.open_of_lock_eq_none hlock
    rw [if_pos hzero, Gate.offer_of_open hopen, decide_eq_true hopen]
    exact ⟨rfl, (Gate.take_of_lock_eq_none hlock).symm⟩
  · have hlock : n.lock = some (n.key, n.now + n.rule.throttleMinutes * 60 * 1000) := if_neg hzero
    rw [if_neg hzero]
    by_cases hheld : (s.redis.get n.now n.key).isSome
    · have hopen : ¬ Gate.Open Notice.lock Notice.now s.gate n := by
        intro hopen
        have hnone : s.redis.get n.now n.key = none := hopen _ hlock
        rw [hnone] at hheld
        exact absurd hheld Bool.false_ne_true
      rw [if_pos hheld, Gate.offer_of_not_open hopen, decide_eq_false hopen]
      exact ⟨rfl, rfl⟩
    · have hopen : Gate.Open Notice.lock Notice.now s.gate n := by
        intro l hl
        rw [hlock] at hl
        cases hl
        exact Option.not_isSome_iff_eq_none.mp hheld
      rw [if_neg hheld, Gate.offer_of_open hopen, decide_eq_true hopen]
      exact ⟨rfl, (Gate.take_of_lock_eq_some hlock).symm⟩

theorem key_of_lock {m n : Notice} (hlock : n.lock ≠ none)
    (h : m.lock.map Prod.fst = n.lock.map Prod.fst) : m.key = n.key := by
  unfold Notice.lock at h hlock
  by_cases hn : n.rule.throttleMinutes ≤ 0
  · exact absurd (if_pos hn) hlock
  · by_cases hm : m.rule.throttleMinutes ≤ 0
    · rw [if_pos hm, if_neg hn] at h
      cases h
    · rw [if_neg hm, if_neg hn] at h
      exact Option.some.inj h

/-! ## What the rules ask for -/

/-- What an event makes the rules say, if it were not for the throttles. -/
def offeredBy (db : Store) (now : Millis) (orgId : Id) (server : HostServer) (event : AlertEvent) :
    List Notice :=
  if event.finding.key ∈ mutedKeys db now orgId server.id then []
  else (activeRules db orgId).flatMap fun rule ↦
    if ruleWantsEvent rule event.type && ruleMatches rule event.finding server then
      [noticeOf db now server event rule]
    else []

/-- What the events of a call make the rules say. -/
def offered (db : Store) (now : Millis) (orgId serverId : Id) (events : List AlertEvent) :
    List Notice :=
  match findServer db orgId serverId with
  | none => []
  | some server => events.flatMap (offeredBy db now orgId server)

theorem told_offer (hgate : s'.gate = s.gate.offer Notice.lock Notice.now n)
    (hattempts : s'.attempts.map Prod.fst = s.attempts.map Prod.fst ++
      if Gate.Open Notice.lock Notice.now s.gate n then n.deliveries else []) :
    Told s s' [n] := by
  refine ⟨hgate, ?_⟩
  rw [hattempts, Gate.passing, Gate.passing]
  by_cases hopen : Gate.Open Notice.lock Notice.now s.gate n
  · rw [if_pos hopen, if_pos hopen, List.flatMap_singleton]
  · rw [if_neg hopen, if_neg hopen]
    rfl

variable {server : HostServer} {event : AlertEvent} {orgId serverId : Id}

theorem dispatchRule_told {rule : PostureAlertRule} :
    Told d.toState (dispatchRule works db now server event d rule).toState
      (if ruleWantsEvent rule event.type && ruleMatches rule event.finding server then
        [noticeOf db now server event rule] else []) := by
  unfold dispatchRule
  cases hwants : ruleWantsEvent rule event.type with
  | false => exact Told.refl
  | true =>
    cases hmatches : ruleMatches rule event.finding server with
    | false => exact Told.refl
    | true =>
      obtain ⟨hhit, hredis⟩ := throttled_spec (noticeOf db now server event rule) d.toState
      dsimp only [Bool.not_true, Bool.false_eq_true, if_false, Bool.and_true, if_true]
      by_cases hopen : Gate.Open Notice.lock Notice.now d.gate (noticeOf db now server event rule)
      · rw [decide_eq_true hopen] at hhit
        rw [hhit, hredis]
        obtain ⟨hgate, hattempts⟩ := deliver_spec works
          (noticeOf db now server event rule)
          { d with
            redis := (d.gate.offer Notice.lock Notice.now (noticeOf db now server event rule)).store
            notices := d.notices ++ [noticeOf db now server event rule] }
        refine told_offer ?_ ?_
        · rw [Gate.offer_of_open hopen] at hgate ⊢
          exact hgate
        · rw [if_pos hopen]
          exact hattempts
      · rw [decide_eq_false hopen] at hhit
        rw [hhit, hredis]
        refine told_offer ?_ ?_
        · rw [Gate.offer_of_not_open hopen]
          rfl
        · rw [if_neg hopen, List.append_nil]
          rfl

theorem dispatchEvent_told :
    Told d.toState (dispatchEvent works db now orgId server d event).toState
      (offeredBy db now orgId server event) := by
  unfold dispatchEvent offeredBy
  by_cases hmuted : event.finding.key ∈ mutedKeys db now orgId server.id
  · rw [if_pos hmuted, if_pos hmuted]
    exact Told.refl
  · rw [if_neg hmuted, if_neg hmuted]
    exact Told.foldl Dispatch.toState fun d rule _ ↦ dispatchRule_told

theorem mem_activeRules {rule : PostureAlertRule} :
    rule ∈ activeRules db orgId ↔ rule ∈ db.rules ∧ rule.orgId = orgId ∧ rule.isActive = true := by
  rw [activeRules, List.mem_filter, decide_eq_true_eq, Keyed.mem_def]

theorem isActive_of_ruleMatches {rule : PostureAlertRule} {finding : Finding}
    (h : ruleMatches rule finding server = true) : rule.isActive = true := by
  simp only [ruleMatches, Bool.and_eq_true] at h
  exact h.1.1.1.1

theorem findServer_eq_some : findServer db orgId serverId = some server ↔
    server ∈ db.servers ∧ server.id = serverId ∧ server.orgId = orgId := by
  rw [findServer, Option.filter_eq_some_iff, Keyed.find_eq_some, decide_eq_true_eq, and_assoc]

theorem mem_offeredBy : n ∈ offeredBy db now orgId server event ↔
    event.finding.key ∉ mutedKeys db now orgId server.id ∧
      ∃ rule ∈ db.rules, rule.orgId = orgId ∧ ruleWantsEvent rule event.type = true ∧
        ruleMatches rule event.finding server = true ∧
        noticeOf db now server event rule = n := by
  unfold offeredBy
  by_cases hmuted : event.finding.key ∈ mutedKeys db now orgId server.id
  · rw [if_pos hmuted]
    exact ⟨fun h ↦ absurd h List.not_mem_nil, fun h ↦ absurd hmuted h.1⟩
  · rw [if_neg hmuted, List.mem_flatMap]
    refine ⟨?_, ?_⟩
    · rintro ⟨rule, hrule, hn⟩
      obtain ⟨hmem, horg, -⟩ := mem_activeRules.mp hrule
      by_cases hasks : (ruleWantsEvent rule event.type && ruleMatches rule event.finding server) = true
      · rw [if_pos hasks, List.mem_singleton] at hn
        obtain ⟨hwants, hmatches⟩ := Bool.and_eq_true_iff.mp hasks
        exact ⟨hmuted, rule, hmem, horg, hwants, hmatches, hn.symm⟩
      · rw [if_neg hasks] at hn
        cases hn
    · rintro ⟨-, rule, hmem, horg, hwants, hmatches, rfl⟩
      refine ⟨rule, mem_activeRules.mpr ⟨hmem, horg, isActive_of_ruleMatches hmatches⟩, ?_⟩
      rw [hwants, hmatches]
      exact List.mem_singleton_self _

theorem mem_offered {events : List AlertEvent} : n ∈ offered db now orgId serverId events ↔
    ∃ server, findServer db orgId serverId = some server ∧
      ∃ event ∈ events, n ∈ offeredBy db now orgId server event := by
  unfold offered
  cases hserver : findServer db orgId serverId with
  | none =>
    refine ⟨fun h ↦ absurd h List.not_mem_nil, ?_⟩
    rintro ⟨server, h, -⟩
    cases h
  | some server =>
    rw [List.mem_flatMap]
    constructor
    · rintro ⟨event, hevent, hn⟩
      exact ⟨server, rfl, event, hevent, hn⟩
    · rintro ⟨server', h, event, hevent, hn⟩
      cases h
      exact ⟨event, hevent, hn⟩

theorem dispatchFindingEvents_told (works : List (Delivery × Bool) → Delivery → Bool) (db : Store)
    (now : Millis) (orgId serverId : Id) (events : List AlertEvent) (s : State) :
    Told s (dispatchFindingEvents works db now orgId serverId events s).1
      (offered db now orgId serverId events) := by
  unfold dispatchFindingEvents offered
  cases hserver : findServer db orgId serverId with
  | none => exact Told.refl
  | some server =>
    cases hrules : activeRules db orgId with
    | nil =>
      have hnone : events.flatMap (offeredBy db now orgId server) = [] := by
        refine List.flatMap_eq_nil_iff.mpr fun event _ ↦ ?_
        rw [offeredBy, hrules, List.flatMap_nil, ite_self]
      simp only [hnone]
      exact Told.refl
    | cons rule rules =>
      exact Told.foldl Dispatch.toState (b := ⟨s, {}⟩) fun d event _ ↦ dispatchEvent_told

end

end Alerts

end Posture

end Shellius
