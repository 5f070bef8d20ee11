import Shellius.Posture.Alerts

/-!
# Escalation

`jobs/postureEscalate.js`: once an hour, each rule that escalates looks for the findings that have
been open for too long, and these are dispatched like any other event.  The dispatcher then asks
all rules of the organization and not only the one that looked, and it counts an escalation
against the same throttle as what came before it.

`Follows` is what a pass should do: it escalates what is due for a rule through this rule, and
nothing else.  `along_follows_iff` says of which runs it is true.
-/

namespace Shellius.Posture.Alerts

open Lib

/-! ## The job -/

def hourMs : Int := 60 * 60 * 1000

/-- What a query with `take: max` may answer: some of the rows, in some order, and all of them if
they are not too many. -/
structure Taken {α : Type} (max : Nat) (l : List α) where
  rows : List α
  subperm : rows.Subperm l
  length_eq : rows.length = min max l.length

/-- A database may answer with the rows that come first. -/
def Taken.first {α : Type} (max : Nat) (l : List α) : Taken max l where
  rows := l.take max
  subperm := (List.take_sublist max l).subperm
  length_eq := List.length_take

section

variable (db : Store) (now : Millis)

def escalationRules : List PostureAlertRule :=
  db.rules.rows.filter fun rule ↦ rule.isActive = true ∧ rule.escalateAfterHours ≠ none

def overdue (rule : PostureAlertRule) : List FindingRow :=
  db.findings.rows.filter fun f ↦
    f.orgId = rule.orgId ∧ f.resolvedAt = none ∧ f.acknowledgedAt = none ∧
      (∃ h ∈ rule.escalateAfterHours, f.firstSeenAt < now - h * hourMs) ∧
      ∀ t ∈ f.mutedUntil, t < now

end

/-- What a pass finds: the database, and which rows it answers with. -/
structure Pass where
  db : Store
  now : Millis
  rows : ∀ rule, Taken 200 (overdue db now rule)
  /-- The instant from which a finding has been open, unacknowledged and unmuted.  The row has
  no more of it than when the finding was seen first and a mute that has ended. -/
  since : FindingRow → Millis
  firstSeenAt_le : ∀ f, f.firstSeenAt ≤ since f
  mutedUntil_le : ∀ f, ∀ t ∈ f.mutedUntil, t ≤ since f

section

variable (works : List (Delivery × Bool) → Delivery → Bool)

def escalate (p : Pass) (rule : PostureAlertRule) (s : State × Nat) (f : FindingRow) :
    State × Nat :=
  ((dispatchFindingEvents works p.db p.now rule.orgId f.serverId
    [⟨.escalation, f.toFinding⟩] s.1).1, s.2 + 1)

/-- `runEscalationPass`, with how many it has escalated -/
def runEscalationPass (p : Pass) (s : State) : State × Nat :=
  (escalationRules p.db).foldl (fun s rule ↦ (p.rows rule).rows.foldl (escalate works p rule) s)
    (s, 0)

/-- The job runs, or a report of a host has come in. -/
inductive Step where
  | escalate (p : Pass)
  | ingest (db : Store) (now : Millis) (orgId serverId : Id) (events : List FindingEvent)

def Step.run (s : State) : Step → State
  | .escalate p => (runEscalationPass works p s).1
  | .ingest db now orgId serverId events =>
    (dispatchFindingEvents works db now orgId serverId (events.map ofIngest) s).1

end

/-! ## What a pass should do -/

structure Due (p : Pass) (rule : PostureAlertRule) (f : FindingRow) : Prop where
  finding_mem : f ∈ p.db.findings
  rule_mem : rule ∈ p.db.rules
  isActive : rule.isActive = true
  orgId_eq : rule.orgId = f.orgId
  ruleMatches : ∃ server, findServer p.db f.orgId f.serverId = some server ∧
    ruleMatches rule f.toFinding server = true
  unresolved : f.resolvedAt = none
  unacknowledged : f.acknowledgedAt = none
  unmuted : ∀ t ∈ f.mutedUntil, t ≤ p.now
  hours : ∃ h, rule.escalateAfterHours = some h ∧ p.since f + h * hourMs ≤ p.now

def Notice.Escalates (n : Notice) (rule : PostureAlertRule) (f : FindingRow) : Prop :=
  n.event.type = .escalation ∧ n.rule.id = rule.id ∧ n.server.id = f.serverId ∧
    n.event.finding.key = f.key

def Escalated (s : State) (rule : PostureAlertRule) (f : FindingRow) : Prop :=
  ∃ n ∈ s.notices, n.Escalates rule f

/-- A pass escalates only what is due, and when it is over all that is due has been escalated. -/
structure Follows (works : List (Delivery × Bool) → Delivery → Bool) (s : State) (p : Pass) :
    Prop where
  sound : ∀ ns, (runEscalationPass works p s).1.notices = s.notices ++ ns →
    ∀ n ∈ ns, ∃ f, n.Escalates n.rule f ∧ Due p n.rule f
  complete : ∀ rule f, Due p rule f → Escalated (runEscalationPass works p s).1 rule f

def escalation (p : Pass) (server : HostServer) (f : FindingRow) (rule : PostureAlertRule) :
    Notice := noticeOf p.db p.now server ⟨.escalation, f.toFinding⟩ rule

def TakenUp (p : Pass) (f : FindingRow) : Prop :=
  ∃ rule ∈ escalationRules p.db, f ∈ (p.rows rule).rows

def Unthrottled (s : State) (p : Pass) (rule : PostureAlertRule) (f : FindingRow) : Prop :=
  ∀ server, findServer p.db f.orgId f.serverId = some server →
    Gate.Open Notice.lock Notice.now s.gate (escalation p server f rule)

/-- What a pass takes up is due for all rules that match it and are not throttled. -/
def DueForAll (s : State) (p : Pass) : Prop :=
  ∀ f, TakenUp p f → ∀ rule ∈ p.db.rules, rule.orgId = f.orgId →
    (∃ server, findServer p.db f.orgId f.serverId = some server ∧
      ruleMatches rule f.toFinding server = true) →
    Unthrottled s p rule f → ∃ h, rule.escalateAfterHours = some h ∧ p.since f + h * hourMs ≤ p.now

/-- Besides, what is due for a rule is taken up and not throttled, if it has not been escalated
before. -/
structure Meets (s : State) (p : Pass) : Prop where
  due : DueForAll s p
  reached : ∀ rule f, Due p rule f →
    Escalated s rule f ∨ TakenUp p f ∧ Unthrottled s p rule f

/-- Every pass of a run is as it should be. -/
def Along (works : List (Delivery × Bool) → Delivery → Bool) (P : State → Pass → Prop) (s : State) :
    List Step → Prop
  | [] => True
  | a :: as => (∀ p, a = .escalate p → P s p) ∧ Along works P (a.run works s) as

/-! ## What a pass asks for -/

section

variable {works : List (Delivery × Bool) → Delivery → Bool} {db : Store} {now : Millis} {p : Pass}
  {s : State} {f g : FindingRow} {rule : PostureAlertRule} {server : HostServer} {n : Notice}

theorem mem_overdue : f ∈ overdue db now rule ↔
    f ∈ db.findings ∧ f.orgId = rule.orgId ∧ f.resolvedAt = none ∧ f.acknowledgedAt = none ∧
      (∃ h ∈ rule.escalateAfterHours, f.firstSeenAt < now - h * hourMs) ∧
      ∀ t ∈ f.mutedUntil, t < now := by
  rw [overdue, List.mem_filter, decide_eq_true_eq, Keyed.mem_def]

theorem mem_escalationRules : rule ∈ escalationRules db ↔
    rule ∈ db.rules ∧ rule.isActive = true ∧ rule.escalateAfterHours ≠ none := by
  rw [escalationRules, List.mem_filter, decide_eq_true_eq, Keyed.mem_def]

theorem TakenUp.overdue (h : TakenUp p f) :
    ∃ rule ∈ p.db.rules, f ∈ overdue p.db p.now rule := by
  obtain ⟨rule, hrule, hf⟩ := h
  exact ⟨rule, (mem_escalationRules.mp hrule).1, (p.rows rule).subperm.subset hf⟩

theorem TakenUp.mem (h : TakenUp p f) : f ∈ p.db.findings := by
  obtain ⟨rule, -, hf⟩ := h.overdue
  exact (mem_overdue.mp hf).1

theorem finding_ext (hf : f ∈ p.db.findings) (hg : g ∈ p.db.findings)
    (hserver : f.serverId = g.serverId) (hkey : f.key = g.key) : f = g :=
  Keyed.ext hf hg (Prod.ext hserver hkey)

theorem TakenUp.notMem_mutedKeys (h : TakenUp p f) :
    f.toFinding.key ∉ mutedKeys p.db p.now f.orgId f.serverId := by
  obtain ⟨rule, -, hf⟩ := h.overdue
  obtain ⟨hmem, -, -, -, -, hunmuted⟩ := mem_overdue.mp hf
  intro hmuted
  obtain ⟨g, hg, hkey⟩ := List.mem_map.mp hmuted
  obtain ⟨hgmem, hgmuted⟩ := List.mem_filter.mp hg
  obtain ⟨-, hserver, t, ht, hlt⟩ := of_decide_eq_true hgmuted
  obtain rfl : g = f := finding_ext hgmem hmem hserver hkey
  exact absurd (hunmuted t ht) (not_lt.mpr hlt.le)

def asked (p : Pass) : List Notice :=
  (escalationRules p.db).flatMap fun rule ↦ (p.rows rule).rows.flatMap fun f ↦
    offered p.db p.now rule.orgId f.serverId [⟨.escalation, f.toFinding⟩]

theorem runEscalationPass_told (works : List (Delivery × Bool) → Delivery → Bool) (p : Pass)
    (s : State) : Told s (runEscalationPass works p s).1 (asked p) := by
  refine Told.foldl Prod.fst (b := (s, 0)) fun b rule _ ↦ ?_
  exact Told.foldl Prod.fst fun c f _ ↦ dispatchFindingEvents_told works _ _ _ _ _ _

theorem mem_asked : n ∈ asked p ↔ ∃ f, TakenUp p f ∧
    ∃ server, findServer p.db f.orgId f.serverId = some server ∧
      ∃ rule ∈ p.db.rules, rule.orgId = f.orgId ∧ ruleMatches rule f.toFinding server = true ∧
        escalation p server f rule = n := by
  constructor
  · intro h
    obtain ⟨looking, hlooking, h⟩ := List.mem_flatMap.mp h
    obtain ⟨f, hf, h⟩ := List.mem_flatMap.mp h
    have horg : f.orgId = looking.orgId := (mem_overdue.mp ((p.rows looking).subperm.subset hf)).2.1
    obtain ⟨server, hserver, event, hevent, h⟩ := mem_offered.mp h
    obtain rfl := List.mem_singleton.mp hevent
    obtain ⟨-, rule, hrule, horg', -, hmatches, rfl⟩ := mem_offeredBy.mp h
    rw [← horg] at hserver horg'
    exact ⟨f, ⟨looking, hlooking, hf⟩, server, hserver, rule, hrule, horg', hmatches, rfl⟩
  · rintro ⟨f, htaken, server, hserver, rule, hrule, horg, hmatches, rfl⟩
    have hmuted := htaken.notMem_mutedKeys
    obtain ⟨looking, hlooking, hf⟩ := htaken
    have hlorg : f.orgId = looking.orgId := (mem_overdue.mp ((p.rows looking).subperm.subset hf)).2.1
    refine List.mem_flatMap.mpr ⟨looking, hlooking, List.mem_flatMap.mpr ⟨f, hf, ?_⟩⟩
    rw [← hlorg]
    have hid : server.id = f.serverId := (findServer_eq_some.mp hserver).2.1
    refine mem_offered.mpr ⟨server, hserver, _, List.mem_singleton_self _, ?_⟩
    exact mem_offeredBy.mpr ⟨hid ▸ hmuted, rule, hrule, horg, rfl, hmatches, rfl⟩

theorem asked_ext {m : Notice} (hn : n ∈ asked p) (hm : m ∈ asked p) (hkey : n.key = m.key) :
    n = m := by
  obtain ⟨f, hf, server, hserver, rule, hrule, -, -, rfl⟩ := mem_asked.mp hn
  obtain ⟨f', hf', server', hserver', rule', hrule', -, -, rfl⟩ := mem_asked.mp hm
  obtain ⟨hruleId, hrest⟩ := Prod.mk.inj hkey
  obtain ⟨hserverId, hfinding⟩ := Prod.mk.inj hrest
  obtain ⟨hmem, hid, -⟩ := findServer_eq_some.mp hserver
  obtain ⟨hmem', hid', -⟩ := findServer_eq_some.mp hserver'
  obtain rfl : server = server' := Keyed.ext hmem hmem' hserverId
  obtain rfl : rule = rule' := Keyed.ext hrule hrule' hruleId
  obtain rfl : f = f' := finding_ext hf.mem hf'.mem (hid.symm.trans hid') hfinding
  rfl

theorem exists_sent (works : List (Delivery × Bool) → Delivery → Bool) (p : Pass) (s : State) :
    ∃ ns, (runEscalationPass works p s).1.notices = s.notices ++ ns ∧
      ∀ n, n ∈ ns ↔ n ∈ asked p ∧ Gate.Open Notice.lock Notice.now s.gate n := by
  refine ⟨s.gate.passing Notice.lock Notice.now (asked p), ?_, ?_⟩
  · have hgate := congrArg Gate.passed (runEscalationPass_told works p s).gate
    exact hgate.trans Gate.passed_offers
  · intro n
    have hnow : ∀ a ∈ asked p, a.now = p.now := by
      intro a ha
      obtain ⟨f, -, server, -, rule, -, -, -, rfl⟩ := mem_asked.mp ha
      rfl
    refine Gate.mem_passing_iff hnow fun a ha b hb hlock hkey ↦ ?_
    exact asked_ext hb ha (key_of_lock hlock hkey)

theorem mem_sent {ns : List Notice}
    (hns : (runEscalationPass works p s).1.notices = s.notices ++ ns) :
    n ∈ ns ↔ n ∈ asked p ∧ Gate.Open Notice.lock Notice.now s.gate n := by
  obtain ⟨ns', hns', hmem⟩ := exists_sent works p s
  rw [hns'] at hns
  rw [← List.append_cancel_left hns]
  exact hmem n

/-! ## What escalations depend on -/

theorem escalates_escalation (hserver : findServer p.db f.orgId f.serverId = some server) :
    (escalation p server f rule).Escalates rule f :=
  ⟨rfl, rfl, (findServer_eq_some.mp hserver).2.1, rfl⟩

theorem Notice.Escalates.finding_eq (hserver : findServer p.db f.orgId f.serverId = some server)
    (h : (escalation p server f rule).Escalates rule g) (hf : f ∈ p.db.findings)
    (hg : g ∈ p.db.findings) : f = g := by
  obtain ⟨-, -, hid, hkey⟩ := h
  exact finding_ext hf hg ((findServer_eq_some.mp hserver).2.1.symm.trans hid) hkey

theorem sound_iff :
    (∀ ns, (runEscalationPass works p s).1.notices = s.notices ++ ns →
      ∀ n ∈ ns, ∃ f, n.Escalates n.rule f ∧ Due p n.rule f) ↔ DueForAll s p := by
  constructor
  · rintro hsound f htaken rule hrule horg ⟨server, hserver, hmatches⟩ hopen
    obtain ⟨ns, hns, hmem⟩ := exists_sent works p s
    have hasked : escalation p server f rule ∈ asked p :=
      mem_asked.mpr ⟨f, htaken, server, hserver, rule, hrule, horg, hmatches, rfl⟩
    obtain ⟨g, hescalates, hdue⟩ := hsound ns hns _ ((hmem _).mpr ⟨hasked, hopen server hserver⟩)
    obtain rfl := hescalates.finding_eq hserver htaken.mem hdue.finding_mem
    exact hdue.hours
  · intro hmeets ns hns n hn
    obtain ⟨hasked, hopen⟩ := (mem_sent hns).mp hn
    obtain ⟨f, htaken, server, hserver, rule, hrule, horg, hmatches, rfl⟩ := mem_asked.mp hasked
    obtain ⟨looking, -, hf⟩ := htaken.overdue
    obtain ⟨hmem, -, hresolved, hack, -, hunmuted⟩ := mem_overdue.mp hf
    refine ⟨f, escalates_escalation hserver, ?_⟩
    exact {
      finding_mem := hmem
      rule_mem := hrule
      isActive := isActive_of_ruleMatches hmatches
      orgId_eq := horg
      ruleMatches := ⟨server, hserver, hmatches⟩
      unresolved := hresolved
      unacknowledged := hack
      unmuted := fun t ht ↦ (hunmuted t ht).le
      hours := by
        refine hmeets f htaken rule hrule horg ⟨server, hserver, hmatches⟩ fun server' h ↦ ?_
        rw [hserver] at h
        cases h
        exact hopen }

theorem escalated_iff (hdue : Due p rule f) :
    Escalated (runEscalationPass works p s).1 rule f ↔
      Escalated s rule f ∨ TakenUp p f ∧ Unthrottled s p rule f := by
  obtain ⟨ns, hns, hmem⟩ := exists_sent works p s
  obtain ⟨server, hserver, hmatches⟩ := hdue.ruleMatches
  unfold Escalated
  rw [hns]
  constructor
  · rintro ⟨n, hn, hescalates⟩
    obtain hn | hn := List.mem_append.mp hn
    · exact .inl ⟨n, hn, hescalates⟩
    · obtain ⟨hasked, hopen⟩ := (hmem n).mp hn
      obtain ⟨g, htaken, server', hserver', rule', hrule', -, -, rfl⟩ := mem_asked.mp hasked
      obtain rfl : rule' = rule := Keyed.ext hrule' hdue.rule_mem hescalates.2.1
      obtain rfl := hescalates.finding_eq hserver' htaken.mem hdue.finding_mem
      refine .inr ⟨htaken, fun server'' h ↦ ?_⟩
      rw [hserver'] at h
      cases h
      exact hopen
  · rintro (⟨n, hn, hescalates⟩ | ⟨htaken, hopen⟩)
    · exact ⟨n, List.mem_append_left _ hn, hescalates⟩
    · have hasked : escalation p server f rule ∈ asked p := mem_asked.mpr
        ⟨f, htaken, server, hserver, rule, hdue.rule_mem, hdue.orgId_eq, hmatches, rfl⟩
      exact ⟨_, List.mem_append_right _ ((hmem _).mpr ⟨hasked, hopen server hserver⟩),
        escalates_escalation hserver⟩

/-! ## Runs -/

theorem follows_iff : Follows works s p ↔ Meets s p := by
  constructor
  · intro h
    refine ⟨sound_iff.mp h.sound, fun rule f hdue ↦ ?_⟩
    exact (escalated_iff hdue).mp (h.complete rule f hdue)
  · intro h
    refine ⟨sound_iff.mpr h.due, fun rule f hdue ↦ ?_⟩
    exact (escalated_iff hdue).mpr (h.reached rule f hdue)

/-- The passes of a run do as they should just if they find things as they should be. -/
theorem along_follows_iff (works : List (Delivery × Bool) → Delivery → Bool) (s : State)
    (steps : List Step) :
    Along works (Follows works) s steps ↔ Along works Meets s steps := by
  induction steps generalizing s with
  | nil => exact Iff.rfl
  | cons a as ih =>
    refine and_congr ?_ (ih (a.run works s))
    exact forall_congr' fun p ↦ imp_congr_right fun _ ↦ follows_iff

def quietRule : PostureAlertRule :=
  { id := "quiet", orgId := "org", recipientUserIds := ["user"] }

def pagedAnyway : Pass where
  db := {
    tenancy := { users := ⟨[{ id := "user", orgId := "org" }], by decide⟩ }
    servers := ⟨[{ id := "server", orgId := "org", customerId := "customer" }], by decide⟩
    rules := ⟨[{ id := "loud", orgId := "org", escalateAfterHours := some 24 }, quietRule],
      by decide⟩
    findings := ⟨[{
      toFinding := mkFinding .PORT_EXPOSED (some .tcp) (some 8080) none none "open" []
      firstSeenAt := 0, lastSeenAt := 0, orgId := "org", serverId := "server" }], by decide⟩ }
  now := 48 * hourMs
  rows rule := .first 200 (overdue _ _ rule)
  since f := max f.firstSeenAt (f.mutedUntil.getD f.firstSeenAt)
  firstSeenAt_le f := Int.le_max_left _ _
  mutedUntil_le f t ht := by
    rw [Option.mem_def.mp ht]
    exact Int.le_max_right _ _

/-- The user is told of it through the rule that does not escalate. -/
theorem escalated_through_quietRule :
    ¬ Along (fun _ _ ↦ true) (Follows fun _ _ ↦ true) {} [.escalate pagedAnyway] := by
  rintro ⟨hfollows, -⟩
  have hquiet : ∃ n ∈ (runEscalationPass (fun _ _ ↦ true) pagedAnyway {}).1.notices,
      n.rule = quietRule ∧ n.recipients.map (fun u ↦ u.id) = ["user"] := by
    decide +kernel
  obtain ⟨n, hn, hrule, -⟩ := hquiet
  obtain ⟨f, -, hdue⟩ := (hfollows pagedAnyway rfl).sound _ rfl n hn
  obtain ⟨h, hhours, -⟩ := hdue.hours
  rw [hrule] at hhours
  cases hhours

end

end Shellius.Posture.Alerts
