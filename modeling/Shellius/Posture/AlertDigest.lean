import Shellius.Posture.Alerts

/-!
# Who is told

`postureDigestService.sendDigest` is the other way in which people hear of findings: the mails of a
rule in digest mode go out once a day or a week, one for each recipient, with what has been found
meanwhile.

A person is told of a finding only if a rule addresses them and they may see the server, by the
dispatcher (`Tells`) as by the digests (`Mails`); and where that is so they are told, whether or not
it works for anybody else.
-/

namespace Shellius.Posture.Alerts

open Lib

/-! ## Digests -/

/-- `toRow` -/
structure DigestRow where
  severity : Severity
  code : FindingCode
  proto : Option FindingProto
  port : Option Nat
  message : String
  serverName : String
  environment : Environment
  customerId : Id

def toRow (f : FindingRow) (server : HostServer) : DigestRow :=
  ⟨f.severity, f.code, f.proto, f.port, f.message, server.host, server.environment,
    server.customerId⟩

structure Window where
  fromTime : Millis
  toTime : Millis

section

variable (db : Store) (maxDigestFindings : Nat) (now : Millis)

/-- The `server` relation of a finding. -/
def serverOf (f : FindingRow) : Option HostServer := db.servers.find f.serverId

/-- What both queries ask for. -/
def base (rule : PostureAlertRule) (f : FindingRow) : Bool :=
  f.orgId = rule.orgId &&
    (rule.severities.isEmpty || rule.severities.contains f.severity) &&
    (rule.codes.isEmpty || rule.codes.contains f.code.text) &&
    (rule.customerIds.isEmpty && rule.environments.isEmpty ||
      (serverOf db f).any fun server ↦
        (rule.customerIds.isEmpty || rule.customerIds.contains server.customerId) &&
        (rule.environments.isEmpty || rule.environments.contains server.environment)) &&
    f.mutedUntil.all fun t ↦ t ≤ now

def openedWhere (rule : PostureAlertRule) (w : Window) (f : FindingRow) : Bool :=
  base db now rule f && f.resolvedAt.isNone && f.acknowledgedAt.isNone &&
    decide (w.fromTime ≤ f.firstSeenAt ∧ f.firstSeenAt < w.toTime)

def resolvedWhere (rule : PostureAlertRule) (w : Window) (f : FindingRow) : Bool :=
  base db now rule f && f.resolvedAt.any fun t ↦ decide (w.fromTime ≤ t ∧ t < w.toTime)

def keep (rule : PostureAlertRule) (rows : List FindingRow) : List DigestRow :=
  rows.filterMap fun f ↦ (serverOf db f).bind fun server ↦
    if ruleMatches rule f.toFinding server then some (toRow f server) else none

/-- `findingsForWindow`, what has been opened -/
def openedRows (rule : PostureAlertRule) (w : Window) : List DigestRow :=
  keep db rule ((sortOn (fun f ↦ -f.firstSeenAt)
    (db.findings.rows.filter (openedWhere db now rule w))).take (maxDigestFindings * 10))

/-- `findingsForWindow`, what has been resolved -/
def resolvedRows (rule : PostureAlertRule) (w : Window) : List DigestRow :=
  if rule.notifyOnResolve then
    keep db rule ((sortOn (fun f ↦ -(f.resolvedAt.getD 0))
      (db.findings.rows.filter (resolvedWhere db now rule w))).take (maxDigestFindings * 10))
  else []

/-- The place of a severity in a mail, worst first. -/
def severityRank : Severity → Nat
  | .CRITICAL => 0
  | .HIGH => 1
  | .MEDIUM => 2
  | .LOW => 3
  | .INFO => 4

/-- `capped`, with how many are left out -/
def capped (rows : List DigestRow) : List DigestRow × Nat :=
  ((sortOn (fun r ↦ severityRank r.severity) rows).take maxDigestFindings,
    rows.length - maxDigestFindings)

/-- What a scope lets through. -/
def visible (scope : Scope) (rows : List DigestRow) : List DigestRow :=
  rows.filter fun r ↦ scope.admits r.customerId

structure Mail where
  /-- `to: user.email` -/
  user : ScopedUser
  ruleName : String
  period : Window
  findings : List DigestRow
  resolved : List DigestRow
  truncated : Nat

/-- Why somebody got no mail. -/
inductive Skip where
  | noEmailChannel
  | noRecipients
  | noAddress (userId : Id)
  | nothingVisible (userId : Id)
  | failed (userId : Id)

/-- What `sendDigest` returns, and the mails it has tried and if they worked. -/
structure DigestResult where
  sent : Nat := 0
  recipients : Nat := 0
  findings : Nat := 0
  scopedOut : Nat := 0
  skipped : List Skip := []
  mails : List (Mail × Bool) := []

/-- The mail for a recipient, if there is anything in it that they may see. -/
def mailFor (rule : PostureAlertRule) (w : Window) (user : ScopedUser) : Option Mail :=
  let mine := visible (db.tenancy.resolveScope user) (openedRows db maxDigestFindings now rule w)
  let mineResolved :=
    visible (db.tenancy.resolveScope user) (resolvedRows db maxDigestFindings now rule w)
  if mine = [] ∧ mineResolved = [] then none
  else some ⟨user, rule.name, w, (capped maxDigestFindings mine).1,
    (capped maxDigestFindings mineResolved).1, (capped maxDigestFindings mine).2⟩

/-- Whether the scope of somebody can be read, and whether a mail works. -/
structure Services where
  resolves : ScopedUser → Bool
  mails : List (Mail × Bool) → Mail → Bool

variable (services : Services)

/-- The loop over the recipients. -/
def mailStep (rule : PostureAlertRule) (w : Window) (result : DigestResult) (user : ScopedUser) :
    DigestResult :=
  if user.email = "" then { result with skipped := result.skipped ++ [.noAddress user.id] }
  else if !services.resolves user then result
  else
    match mailFor db maxDigestFindings now rule w user with
    | none => { result with
        scopedOut := result.scopedOut + 1
        skipped := result.skipped ++ [.nothingVisible user.id] }
    | some mail =>
      if services.mails result.mails mail then
        { result with sent := result.sent + 1, mails := result.mails ++ [(mail, true)] }
      else { result with
        skipped := result.skipped ++ [.failed user.id]
        mails := result.mails ++ [(mail, false)] }

def sendDigest (rule : PostureAlertRule) (w : Window) : DigestResult :=
  if .email ∉ rule.channels then { skipped := [.noEmailChannel] }
  else
    let opened := openedRows db maxDigestFindings now rule w
    if opened = [] ∧ resolvedRows db maxDigestFindings now rule w = [] then {}
    else
      let recipients := resolveRecipients db rule.orgId rule false
      if recipients = [] then { findings := opened.length, skipped := [.noRecipients] }
      else recipients.foldl (mailStep db maxDigestFindings now services rule w)
        { findings := opened.length, recipients := recipients.length }

end

/-! ## Recipients -/

def Addresses (db : Store) (rule : PostureAlertRule) (escalating : Bool) (user : ScopedUser) :
    Prop :=
  user.id ∈ rule.recipientUserIds ∨
  (user.role.key ∈ rule.recipientRoles ∨
    ∃ r ∈ db.tenancy.assignedRole user, r.key ∈ rule.recipientRoles) ∨
  (∃ g ∈ rule.recipientGroupId, ⟨g, user.id⟩ ∈ db.tenancy.groupMemberships) ∨
  (escalating = true ∧ ∃ g ∈ rule.escalateToGroupId, ⟨g, user.id⟩ ∈ db.tenancy.groupMemberships)

/-- An active human user whom a rule addresses and who may see the server. -/
structure Recipient (db : Store) (rule : PostureAlertRule) (escalating : Bool)
    (server : HostServer) (user : ScopedUser) : Prop where
  mem : user ∈ db.tenancy.users
  orgId_eq : user.orgId = rule.orgId
  active : user.status = .active
  deletedAt : user.deletedAt = none
  human : user.kind = .human
  addressed : Addresses db rule escalating user
  maySee : inScope (db.tenancy.resolveScope user) server.toServer = true

section

variable {db : Store} {rule : PostureAlertRule} {escalating : Bool} {server : HostServer}
  {user : ScopedUser}

theorem key_mem_tiers (role : OrgRole) : role.key ∈ tiers := by
  cases role <;> decide

theorem orFilters_iff : orFilters db rule escalating user = true ↔
    Addresses db rule escalating user := by
  have htier : user.role.key ∈ tiers := key_mem_tiers user.role
  simp only [orFilters, Bool.or_eq_true, Bool.and_eq_true, List.contains_iff_mem, List.mem_filter,
    htier, and_true, Option.any_eq_true]
  have hids : (!rule.recipientUserIds.isEmpty) = true ∧ user.id ∈ rule.recipientUserIds ↔
      user.id ∈ rule.recipientUserIds :=
    and_iff_right_of_imp fun h ↦ by simp [List.ne_nil_of_mem h]
  have hroles : (!rule.recipientRoles.isEmpty) = true ∧
      (user.role.key ∈ rule.recipientRoles ∨
        ∃ r, db.tenancy.assignedRole user = some r ∧ r.key ∈ rule.recipientRoles) ↔
      user.role.key ∈ rule.recipientRoles ∨
        ∃ r, db.tenancy.assignedRole user = some r ∧ r.key ∈ rule.recipientRoles := by
    refine and_iff_right_of_imp ?_
    rintro (h | ⟨r, -, h⟩)
    · simp [List.ne_nil_of_mem h]
    · simp [List.ne_nil_of_mem h]
  rw [hids, hroles, or_assoc, or_assoc]
  exact Iff.rfl

theorem mem_resolveRecipients {orgId : Id} : user ∈ resolveRecipients db orgId rule escalating ↔
    user ∈ db.tenancy.users ∧ user.orgId = orgId ∧ user.status = .active ∧ user.deletedAt = none ∧
      user.kind = .human ∧ Addresses db rule escalating user := by
  simp only [resolveRecipients, List.mem_filter, Bool.and_eq_true, beq_iff_eq,
    Option.isNone_iff_eq_none, orFilters_iff, and_assoc, Keyed.mem_def]

theorem mem_filterByScope :
    user ∈ filterByScope db (resolveRecipients db rule.orgId rule escalating) server ↔
      Recipient db rule escalating server user := by
  rw [filterByScope, List.mem_filter, mem_resolveRecipients]
  constructor
  · rintro ⟨⟨hmem, horg, hactive, hdeleted, hhuman, haddressed⟩, hsee⟩
    exact ⟨hmem, horg, hactive, hdeleted, hhuman, haddressed, hsee⟩
  · rintro ⟨hmem, horg, hactive, hdeleted, hhuman, haddressed, hsee⟩
    exact ⟨⟨hmem, horg, hactive, hdeleted, hhuman, haddressed⟩, hsee⟩

end

/-! ## What the dispatcher owes -/

def Delivery.to : Delivery → Option ScopedUser
  | .inapp user .. => some user
  | .email user .. => some user
  | .chat .. => none

/-- The personal channels of a rule, and what goes over them. -/
def Notice.Personal (n : Notice) (user : ScopedUser) (d : Delivery) : Prop :=
  .inapp ∈ n.rule.channels ∧ d = n.inapp user ∨
    (.email ∈ n.rule.channels ∧ n.rule.mode ≠ .digest) ∧ d = n.email user

structure Asks (db : Store) (now : Millis) (orgId serverId : Id) (server : HostServer)
    (event : AlertEvent) (rule : PostureAlertRule) : Prop where
  server_eq : findServer db orgId serverId = some server
  unmuted : event.finding.key ∉ mutedKeys db now orgId server.id
  rule_mem : rule ∈ db.rules
  orgId_eq : rule.orgId = orgId
  wants : ruleWantsEvent rule event.type = true
  ruleMatches : ruleMatches rule event.finding server = true

/-- A call tells of its events those who are to know, and only them. -/
structure Tells (works : List (Delivery × Bool) → Delivery → Bool) (db : Store) (now : Millis)
    (orgId serverId : Id) (events : List AlertEvent) (s : State) : Prop where
  /-- Nobody is told of anything unless a rule addresses them and they may see the server. -/
  onlyTo : ∀ new, (dispatchFindingEvents works db now orgId serverId events s).1.attempts =
      s.attempts ++ new → ∀ d ∈ new, ∀ user, d.1.to = some user →
    ∃ server, ∃ event ∈ events, ∃ rule, Asks db now orgId serverId server event rule ∧
      Recipient db rule (event.type = .escalation) server user ∧
      (noticeOf db now server event rule).Personal user d.1
  /-- If the throttle of a rule is free, then all whom it addresses and who may see the server are
  told over each of its channels; with a throttle it may be of another event of the finding. -/
  everyone : ∀ server, ∀ event ∈ events, ∀ rule, Asks db now orgId serverId server event rule →
    Gate.Open Notice.lock Notice.now s.gate (noticeOf db now server event rule) →
    ∃ told ∈ events, told.finding.key = event.finding.key ∧
      (rule.throttleMinutes ≤ 0 → told = event) ∧
      ∀ user, Recipient db rule (told.type = .escalation) server user →
        ∀ d, (noticeOf db now server told rule).Personal user d →
          d ∈ (dispatchFindingEvents works db now orgId serverId events s).1.attempts.map Prod.fst
  /-- Whether it works for some does not matter for the others. -/
  independent : ∀ works' : List (Delivery × Bool) → Delivery → Bool,
    (dispatchFindingEvents works' db now orgId serverId events s).1.attempts.map Prod.fst =
      (dispatchFindingEvents works db now orgId serverId events s).1.attempts.map Prod.fst

section

variable {works : List (Delivery × Bool) → Delivery → Bool} {db : Store} {now : Millis}
  {orgId serverId : Id} {events : List AlertEvent} {s : State} {n : Notice} {user : ScopedUser}
  {d : Delivery}

theorem Notice.mem_personal : d ∈ n.personal user ↔ n.Personal user d := by
  unfold Notice.personal Notice.Personal
  rw [List.mem_append]
  refine or_congr ?_ ?_
  · by_cases h : Channel.inapp ∈ n.rule.channels
    · rw [if_pos h, List.mem_singleton, and_iff_right h]
    · rw [if_neg h]
      exact ⟨fun hd ↦ absurd hd List.not_mem_nil, fun hd ↦ absurd hd.1 h⟩
  · by_cases h : Channel.email ∈ n.rule.channels ∧ n.rule.mode ≠ .digest
    · rw [if_pos h, List.mem_singleton, and_iff_right h]
    · rw [if_neg h]
      exact ⟨fun hd ↦ absurd hd List.not_mem_nil, fun hd ↦ absurd hd.1 h⟩

theorem Notice.Personal.to_eq (h : n.Personal user d) : d.to = some user := by
  obtain ⟨-, rfl⟩ | ⟨-, rfl⟩ := h
  · rfl
  · rfl

theorem Notice.mem_deliveries (hto : d.to = some user) :
    d ∈ n.deliveries ↔ user ∈ n.recipients ∧ n.Personal user d := by
  rw [Notice.deliveries, List.mem_append, List.mem_flatMap]
  constructor
  · rintro (hchat | ⟨other, hother, hd⟩)
    · by_cases h : Channel.chat ∈ n.rule.channels
      · rw [if_pos h, List.mem_singleton] at hchat
        rw [hchat] at hto
        cases hto
      · rw [if_neg h] at hchat
        cases hchat
    · have hpersonal := Notice.mem_personal.mp hd
      have heq := hpersonal.to_eq
      rw [hto] at heq
      cases heq
      exact ⟨hother, hpersonal⟩
  · rintro ⟨huser, hpersonal⟩
    exact .inr ⟨user, huser, Notice.mem_personal.mpr hpersonal⟩

theorem mem_offered_iff : n ∈ offered db now orgId serverId events ↔
    ∃ server, ∃ event ∈ events, ∃ rule, Asks db now orgId serverId server event rule ∧
      noticeOf db now server event rule = n := by
  rw [mem_offered]
  constructor
  · rintro ⟨server, hserver, event, hevent, hn⟩
    obtain ⟨hmuted, rule, hrule, horg, hwants, hmatches, rfl⟩ := mem_offeredBy.mp hn
    exact ⟨server, event, hevent, rule, ⟨hserver, hmuted, hrule, horg, hwants, hmatches⟩, rfl⟩
  · rintro ⟨server, event, hevent, rule, hasks, rfl⟩
    refine ⟨server, hasks.server_eq, event, hevent, mem_offeredBy.mpr ⟨hasks.unmuted, rule, ?_⟩⟩
    exact ⟨hasks.rule_mem, hasks.orgId_eq, hasks.wants, hasks.ruleMatches, rfl⟩

theorem tells (works : List (Delivery × Bool) → Delivery → Bool) (db : Store) (now : Millis)
    (orgId serverId : Id) (events : List AlertEvent) (s : State) :
    Tells works db now orgId serverId events s := by
  have htold := dispatchFindingEvents_told works db now orgId serverId events s
  refine ⟨?_, ?_, ?_⟩
  · intro new hnew d hd user hto
    have hmem : d.1 ∈ new.map Prod.fst := List.mem_map_of_mem hd
    have hattempts := htold.attempts
    rw [hnew, List.map_append, List.append_cancel_left_eq] at hattempts
    rw [hattempts] at hmem
    obtain ⟨n, hn, hdeliver⟩ := List.mem_flatMap.mp hmem
    obtain ⟨server, event, hevent, rule, hasks, rfl⟩ :=
      mem_offered_iff.mp (Gate.mem_of_mem_passing hn)
    obtain ⟨huser, hpersonal⟩ := (Notice.mem_deliveries hto).mp hdeliver
    exact ⟨server, event, hevent, rule, hasks, mem_filterByScope.mp huser, hpersonal⟩
  · intro server event hevent rule hasks hopen
    have hoffered : noticeOf db now server event rule ∈ offered db now orgId serverId events :=
      mem_offered_iff.mpr ⟨server, event, hevent, rule, hasks, rfl⟩
    obtain ⟨n, hn, hpassing, hkey, hnone⟩ := Gate.exists_mem_passing hoffered hopen
    obtain ⟨server', told, htoldmem, rule', hasks', rfl⟩ := mem_offered_iff.mp hn
    obtain rfl : server' = server := Option.some.inj (hasks'.server_eq.symm.trans hasks.server_eq)
    -- without a throttle it is the notice itself, and else one that has the same key
    have hsame : rule' = rule ∧ told.finding.key = event.finding.key := by
      by_cases hlock : (noticeOf db now server' event rule).lock = none
      · have heq := hnone hlock
        exact ⟨congrArg Notice.rule heq, congrArg (fun n ↦ n.event.finding.key) heq⟩
      · obtain ⟨hruleId, hrest⟩ := Prod.mk.inj (key_of_lock hlock hkey)
        exact ⟨Keyed.ext hasks'.rule_mem hasks.rule_mem hruleId, (Prod.mk.inj hrest).2⟩
    obtain ⟨rfl, hfinding⟩ := hsame
    refine ⟨told, htoldmem, hfinding, ?_, ?_⟩
    · intro hzero
      exact congrArg Notice.event (hnone (if_pos hzero))
    · intro user huser d hd
      rw [htold.attempts]
      refine List.mem_append_right _ (List.mem_flatMap.mpr ⟨_, hpassing, ?_⟩)
      exact (Notice.mem_deliveries hd.to_eq).mpr ⟨mem_filterByScope.mpr huser, hd⟩
  · intro works'
    rw [(dispatchFindingEvents_told works' db now orgId serverId events s).attempts,
      htold.attempts]

end

/-! ## What a digest owes -/

/-- A digest names to its recipients what they may see of what the rule matches, and nothing
else. -/
structure Mails (db : Store) (maxDigestFindings : Nat) (now : Millis) (services : Services)
    (rule : PostureAlertRule) (w : Window) : Prop where
  /-- Nobody is mailed about anything unless the rule addresses them and they may see the server. -/
  onlyTo : ∀ mail ∈ (sendDigest db maxDigestFindings now services rule w).mails,
    ∀ row ∈ mail.1.findings ++ mail.1.resolved, ∃ f ∈ db.findings, ∃ server,
      serverOf db f = some server ∧ row = toRow f server ∧ f.orgId = rule.orgId ∧
        ruleMatches rule f.toFinding server = true ∧ Recipient db rule false server mail.1.user
  /-- All whom the rule addresses and who may see the server are mailed of what is new, unless
  there is too much of it; then worse findings take precedence, and the mail says how many are
  left out. -/
  everyone : .email ∈ rule.channels →
    (db.findings.rows.filter (openedWhere db now rule w)).length ≤ maxDigestFindings * 10 →
    ∀ f ∈ db.findings, openedWhere db now rule w f = true → ∀ server, serverOf db f = some server →
      ruleMatches rule f.toFinding server = true →
      ∀ user, Recipient db rule false server user → user.email ≠ "" →
        services.resolves user = true →
        ∃ mail ∈ (sendDigest db maxDigestFindings now services rule w).mails.map Prod.fst,
          mail.user = user ∧ (toRow f server ∈ mail.findings ∨ 0 < mail.truncated ∧
            ∀ row ∈ mail.findings, severityRank row.severity ≤ severityRank f.severity)
  /-- So they are of what has been resolved, if the rule wants it. -/
  resolutions : .email ∈ rule.channels → rule.notifyOnResolve = true →
    (db.findings.rows.filter (resolvedWhere db now rule w)).length ≤ maxDigestFindings * 10 →
    ∀ f ∈ db.findings, resolvedWhere db now rule w f = true → ∀ server,
      serverOf db f = some server → ruleMatches rule f.toFinding server = true →
      ∀ user, Recipient db rule false server user → user.email ≠ "" →
        services.resolves user = true →
        ∃ mail ∈ (sendDigest db maxDigestFindings now services rule w).mails.map Prod.fst,
          mail.user = user ∧ (toRow f server ∈ mail.resolved ∨
            ∀ row ∈ mail.resolved, severityRank row.severity ≤ severityRank f.severity)
  /-- Whether it works for some does not matter for the others. -/
  independent : ∀ services' : Services, ∀ mail : Mail,
    services'.resolves mail.user = services.resolves mail.user →
    (mail ∈ (sendDigest db maxDigestFindings now services' rule w).mails.map Prod.fst ↔
      mail ∈ (sendDigest db maxDigestFindings now services rule w).mails.map Prod.fst)

section

variable {db : Store} {maxDigestFindings : Nat} {now : Millis} {services : Services}
  {rule : PostureAlertRule} {w : Window} {user : ScopedUser} {mail : Mail} {row : DigestRow}
  {f : FindingRow} {server : HostServer} {rows : List FindingRow}

theorem mem_keep : row ∈ keep db rule rows ↔ ∃ f ∈ rows, ∃ server, serverOf db f = some server ∧
    ruleMatches rule f.toFinding server = true ∧ toRow f server = row := by
  simp only [keep, List.mem_filterMap, Option.bind_eq_some_iff, Option.ite_none_right_eq_some,
    Option.some.injEq]

theorem mem_visible {scope : Scope} {digest : List DigestRow} :
    row ∈ visible scope digest ↔ row ∈ digest ∧ scope.admits row.customerId = true := List.mem_filter

theorem admits_iff {scope : Scope} :
    scope.admits (toRow f server).customerId = true ↔ inScope scope server.toServer = true := by
  cases scope <;> exact Iff.rfl

theorem mem_capped {digest : List DigestRow} (h : row ∈ digest) :
    row ∈ (capped maxDigestFindings digest).1 ∨ 0 < (capped maxDigestFindings digest).2 ∧
      ∀ r ∈ (capped maxDigestFindings digest).1,
        severityRank r.severity ≤ severityRank row.severity := by
  unfold capped
  have hsorted := List.pairwise_insertionSort
    (fun a b : DigestRow ↦ severityRank a.severity ≤ severityRank b.severity) digest
  have hlen : (sortOn (fun r ↦ severityRank r.severity) digest).length = digest.length :=
    List.length_insertionSort _ _
  have hrow := (mem_sortOn fun r : DigestRow ↦ severityRank r.severity).mpr h
  rw [← List.take_append_drop maxDigestFindings (sortOn _ digest), List.mem_append] at hrow
  refine hrow.imp id fun hdrop ↦ ⟨?_, fun r hr ↦ ?_⟩
  · have hpos := List.length_pos_of_mem hdrop
    rw [List.length_drop, hlen] at hpos
    exact hpos
  · change List.Pairwise _ (sortOn (fun r ↦ severityRank r.severity) digest) at hsorted
    rw [← List.take_append_drop maxDigestFindings (sortOn _ digest)] at hsorted
    exact (List.pairwise_append.mp hsorted).2.2 r hr row hdrop

theorem capped_subset {digest : List DigestRow} (h : row ∈ (capped maxDigestFindings digest).1) :
    row ∈ digest := (mem_sortOn _).mp (List.mem_of_mem_take h)

/-! ### The loop over the recipients -/

theorem mailStep_mails {result : DigestResult} :
    (mailStep db maxDigestFindings now services rule w result user).mails.map Prod.fst =
      result.mails.map Prod.fst ++
        if user.email ≠ "" && services.resolves user then
          (mailFor db maxDigestFindings now rule w user).toList else [] := by
  unfold mailStep
  by_cases haddress : user.email = ""
  · simp only [haddress, if_true, ne_eq, not_true_eq_false, decide_false, Bool.false_and,
      Bool.false_eq_true, if_false, List.append_nil]
  · cases hresolves : services.resolves user with
    | false =>
      simp only [haddress, if_false, Bool.not_false, if_true, Bool.and_false,
        Bool.false_eq_true, List.append_nil]
    | true =>
      simp only [haddress, if_false, Bool.not_true, Bool.false_eq_true, ne_eq, not_false_eq_true,
        decide_true, Bool.and_true, if_true]
      cases hmail : mailFor db maxDigestFindings now rule w user with
      | none => exact (List.append_nil _).symm
      | some mail =>
        by_cases hworks : services.mails result.mails mail = true
        · simp only [hworks, if_true, List.map_append, List.map_singleton, Option.toList_some]
        · simp only [hworks, if_false, Bool.false_eq_true, List.map_append, List.map_singleton,
            Option.toList_some]

theorem foldl_mailStep (users : List ScopedUser) (result : DigestResult) :
    (users.foldl (mailStep db maxDigestFindings now services rule w) result).mails.map Prod.fst =
      result.mails.map Prod.fst ++ (users.filter fun u ↦
        u.email ≠ "" && services.resolves u).filterMap (mailFor db maxDigestFindings now rule w) := by
  induction users generalizing result with
  | nil => exact (List.append_nil _).symm
  | cons user users ih =>
    rw [List.foldl_cons, ih, mailStep_mails, List.append_assoc, List.filter_cons]
    refine congrArg _ ?_
    by_cases h : (decide (user.email ≠ "") && services.resolves user) = true
    · rw [if_pos h, if_pos h, List.filterMap_cons]
      cases mailFor db maxDigestFindings now rule w user <;> rfl
    · rw [if_neg h, if_neg h]
      rfl

theorem mailFor_eq_none (hopened : openedRows db maxDigestFindings now rule w = [])
    (hresolved : resolvedRows db maxDigestFindings now rule w = []) :
    mailFor db maxDigestFindings now rule w user = none := by
  unfold mailFor
  rw [hopened, hresolved]
  exact if_pos ⟨rfl, rfl⟩

theorem mails_eq : (sendDigest db maxDigestFindings now services rule w).mails.map Prod.fst =
    if .email ∈ rule.channels then
      ((resolveRecipients db rule.orgId rule false).filter fun u ↦
        u.email ≠ "" && services.resolves u).filterMap (mailFor db maxDigestFindings now rule w)
    else [] := by
  unfold sendDigest
  by_cases hchannel : Channel.email ∈ rule.channels
  · rw [if_neg (not_not_intro hchannel), if_pos hchannel]
    by_cases hempty : openedRows db maxDigestFindings now rule w = [] ∧
        resolvedRows db maxDigestFindings now rule w = []
    · simp only [if_pos hempty]
      refine (List.filterMap_eq_nil_iff.mpr fun user _ ↦ ?_).symm
      exact mailFor_eq_none hempty.1 hempty.2
    · simp only [if_neg hempty]
      by_cases hnobody : resolveRecipients db rule.orgId rule false = []
      · rw [if_pos hnobody, hnobody]
        rfl
      · rw [if_neg hnobody]
        exact foldl_mailStep _ _
  · rw [if_pos hchannel, if_neg hchannel]
    rfl

theorem mem_mails : mail ∈ (sendDigest db maxDigestFindings now services rule w).mails.map Prod.fst ↔
    .email ∈ rule.channels ∧ ∃ user ∈ resolveRecipients db rule.orgId rule false,
      user.email ≠ "" ∧ services.resolves user = true ∧
        mailFor db maxDigestFindings now rule w user = some mail := by
  rw [mails_eq]
  by_cases h : Channel.email ∈ rule.channels
  · rw [if_pos h, and_iff_right h]
    simp only [List.mem_filterMap, List.mem_filter, Bool.and_eq_true, decide_eq_true_eq, and_assoc]
  · rw [if_neg h]
    exact ⟨fun hm ↦ absurd hm List.not_mem_nil, fun hm ↦ absurd hm.1 h⟩

theorem mailFor_eq_some : mailFor db maxDigestFindings now rule w user = some mail ↔
    ¬ (visible (db.tenancy.resolveScope user) (openedRows db maxDigestFindings now rule w) = [] ∧
      visible (db.tenancy.resolveScope user) (resolvedRows db maxDigestFindings now rule w) = []) ∧
    ⟨user, rule.name, w,
      (capped maxDigestFindings (visible (db.tenancy.resolveScope user)
        (openedRows db maxDigestFindings now rule w))).1,
      (capped maxDigestFindings (visible (db.tenancy.resolveScope user)
        (resolvedRows db maxDigestFindings now rule w))).1,
      (capped maxDigestFindings (visible (db.tenancy.resolveScope user)
        (openedRows db maxDigestFindings now rule w))).2⟩ = mail := by
  simp only [mailFor, Option.ite_none_left_eq_some, Option.some.injEq]

theorem orgId_eq_of_base (h : base db now rule f = true) : f.orgId = rule.orgId := by
  simp only [base, Bool.and_eq_true, decide_eq_true_eq] at h
  exact h.1.1.1.1

theorem exists_of_mem_keep (now : Millis)
    (hbase : ∀ f ∈ rows, f ∈ db.findings ∧ base db now rule f = true)
    (h : row ∈ keep db rule rows) :
    ∃ f ∈ db.findings, ∃ server, serverOf db f = some server ∧ row = toRow f server ∧
      f.orgId = rule.orgId ∧ ruleMatches rule f.toFinding server = true := by
  obtain ⟨f, hf, server, hserver, hmatches, rfl⟩ := mem_keep.mp h
  obtain ⟨hmem, hb⟩ := hbase f hf
  exact ⟨f, hmem, server, hserver, rfl, orgId_eq_of_base hb, hmatches⟩

theorem mem_openedRows_or_resolvedRows (h : row ∈ openedRows db maxDigestFindings now rule w ∨
      row ∈ resolvedRows db maxDigestFindings now rule w) :
    ∃ f ∈ db.findings, ∃ server, serverOf db f = some server ∧ row = toRow f server ∧
      f.orgId = rule.orgId ∧ ruleMatches rule f.toFinding server = true := by
  obtain h | h := h
  · refine exists_of_mem_keep now (fun f hf ↦ ?_) h
    obtain ⟨hmem, hopened⟩ := List.mem_filter.mp ((mem_sortOn _).mp (List.mem_of_mem_take hf))
    simp only [openedWhere, Bool.and_eq_true] at hopened
    exact ⟨hmem, hopened.1.1.1⟩
  · unfold resolvedRows at h
    by_cases hwants : rule.notifyOnResolve = true
    · rw [if_pos hwants] at h
      refine exists_of_mem_keep now (fun f hf ↦ ?_) h
      obtain ⟨hmem, hresolved⟩ := List.mem_filter.mp ((mem_sortOn _).mp (List.mem_of_mem_take hf))
      simp only [resolvedWhere, Bool.and_eq_true] at hresolved
      exact ⟨hmem, hresolved.1⟩
    · rw [if_neg hwants] at h
      cases h

theorem toRow_mem_keep {p : FindingRow → Bool} {key : FindingRow → Int} {max : Nat}
    (hlen : (db.findings.rows.filter p).length ≤ max) (hf : f ∈ db.findings) (hp : p f = true)
    (hserver : serverOf db f = some server) (hmatches : ruleMatches rule f.toFinding server = true) :
    toRow f server ∈ keep db rule ((sortOn key (db.findings.rows.filter p)).take max) := by
  refine mem_keep.mpr ⟨f, ?_, server, hserver, hmatches, rfl⟩
  have hall : (sortOn key (db.findings.rows.filter p)).length ≤ max := by
    rwa [sortOn, List.length_insertionSort]
  rw [List.take_of_length_le hall]
  exact (mem_sortOn _).mpr (List.mem_filter.mpr ⟨hf, hp⟩)

theorem mails (db : Store) (maxDigestFindings : Nat) (now : Millis) (services : Services)
    (rule : PostureAlertRule) (w : Window) :
    Mails db maxDigestFindings now services rule w := by
  refine ⟨?_, ?_, ?_, ?_⟩
  · intro mail hmail row hrow
    obtain ⟨-, user, huser, -, -, hfor⟩ := mem_mails.mp (List.mem_map_of_mem hmail)
    obtain ⟨-, hmail⟩ := mailFor_eq_some.mp hfor
    rw [← hmail] at hrow ⊢
    have hvisible : (row ∈ openedRows db maxDigestFindings now rule w ∨
        row ∈ resolvedRows db maxDigestFindings now rule w) ∧
        (db.tenancy.resolveScope user).admits row.customerId = true := by
      obtain hrow | hrow := List.mem_append.mp hrow
      · obtain ⟨hmem, hadmits⟩ := mem_visible.mp (capped_subset hrow)
        exact ⟨.inl hmem, hadmits⟩
      · obtain ⟨hmem, hadmits⟩ := mem_visible.mp (capped_subset hrow)
        exact ⟨.inr hmem, hadmits⟩
    obtain ⟨f, hf, server, hserver, rfl, horg, hmatches⟩ :=
      mem_openedRows_or_resolvedRows hvisible.1
    refine ⟨f, hf, server, hserver, rfl, horg, hmatches, mem_filterByScope.mp ?_⟩
    exact List.mem_filter.mpr ⟨huser, admits_iff.mp hvisible.2⟩
  · intro hchannel hlen f hf hopened server hserver hmatches user huser haddress hresolves
    have hrow : toRow f server ∈ visible (db.tenancy.resolveScope user)
        (openedRows db maxDigestFindings now rule w) :=
      mem_visible.mpr ⟨toRow_mem_keep hlen hf hopened hserver hmatches,
        admits_iff.mpr huser.maySee⟩
    have hsome := mailFor_eq_some.mpr
      ⟨fun hempty ↦ absurd (hempty.1 ▸ hrow) List.not_mem_nil, rfl⟩
    refine ⟨_, mem_mails.mpr ⟨hchannel, user, ?_, haddress, hresolves, hsome⟩, rfl,
      mem_capped hrow⟩
    exact (List.mem_filter.mp (mem_filterByScope.mpr huser)).1
  · intro hchannel hwants hlen f hf hresolved server hserver hmatches user huser haddress hresolves
    have hrow : toRow f server ∈ visible (db.tenancy.resolveScope user)
        (resolvedRows db maxDigestFindings now rule w) := by
      refine mem_visible.mpr ⟨?_, admits_iff.mpr huser.maySee⟩
      rw [resolvedRows, if_pos hwants]
      exact toRow_mem_keep hlen hf hresolved hserver hmatches
    have hsome := mailFor_eq_some.mpr
      ⟨fun hempty ↦ absurd (hempty.2 ▸ hrow) List.not_mem_nil, rfl⟩
    refine ⟨_, mem_mails.mpr ⟨hchannel, user, ?_, haddress, hresolves, hsome⟩, rfl,
      (mem_capped hrow).imp_right And.right⟩
    exact (List.mem_filter.mp (mem_filterByScope.mpr huser)).1
  · intro services' mail hsame
    rw [mem_mails, mem_mails]
    refine and_congr_right fun _ ↦ exists_congr fun user ↦ and_congr_right fun _ ↦
      and_congr_right fun _ ↦ ?_
    constructor
    · rintro ⟨hresolves, hfor⟩
      obtain ⟨-, rfl⟩ := mailFor_eq_some.mp hfor
      exact ⟨hsame.symm.trans hresolves, hfor⟩
    · rintro ⟨hresolves, hfor⟩
      obtain ⟨-, rfl⟩ := mailFor_eq_some.mp hfor
      exact ⟨hsame.trans hresolves, hfor⟩

end

/-- What happens to findings is told to those whom the rules name and who may see the server, by
the dispatcher and by the digests, and to nobody else. -/
theorem tells_and_mails :
    (∀ works db now orgId serverId events s, Tells works db now orgId serverId events s) ∧
      ∀ db maxDigestFindings now services rule w,
        Mails db maxDigestFindings now services rule w :=
  ⟨tells, mails⟩

def mutedFinding : FindingRow :=
  { toFinding := mkFinding .PORT_EXPOSED (some .tcp) (some 8080) none none "open" []
    firstSeenAt := 0, lastSeenAt := 0, orgId := "org", serverId := "server"
    mutedUntil := some (24 * 60 * 60 * 1000) }

def mutedServer : HostServer := { id := "server", orgId := "org", customerId := "customer" }

def watcher : ScopedUser := { id := "user", orgId := "org" }

def watching : PostureAlertRule := { id := "rule", orgId := "org", recipientUserIds := ["user"] }

def mutedStore : Store where
  tenancy := { users := ⟨[watcher], by decide⟩ }
  servers := ⟨[mutedServer], by decide⟩
  rules := ⟨[watching], by decide⟩
  findings := ⟨[mutedFinding], by decide⟩

/-- Nobody is told of a muted finding, though a rule addresses them and they may see the server. -/
theorem muted_told_to_nobody :
    ¬ ∀ (db : Store) (now : Millis) (orgId serverId : Id) (server : HostServer)
        (event : AlertEvent) (rule : PostureAlertRule) (user : ScopedUser),
      findServer db orgId serverId = some server → rule ∈ db.rules → rule.orgId = orgId →
      ruleWantsEvent rule event.type = true → ruleMatches rule event.finding server = true →
      rule.throttleMinutes ≤ 0 → Recipient db rule (event.type = .escalation) server user →
      .inapp ∈ rule.channels →
      (noticeOf db now server event rule).inapp user ∈
        (dispatchFindingEvents (fun _ _ ↦ true) db now orgId serverId [event] {}).1.attempts.map
          Prod.fst := by
  intro hall
  have hrecipient : Recipient mutedStore watching false mutedServer watcher := {
    mem := by decide
    orgId_eq := rfl
    active := rfl
    deletedAt := rfl
    human := rfl
    addressed := .inl (by decide)
    maySee := rfl }
  have htold := hall mutedStore 0 "org" "server" mutedServer
    ⟨.severity_increased .LOW, mutedFinding.toFinding⟩ watching watcher (by decide) (by decide) rfl
    rfl (by decide) (by decide) hrecipient (by decide)
  exact absurd htold (by decide +kernel)

end Shellius.Posture.Alerts
