import Shellius.Users.Accounts

/-!
# Directory sync

`directorySyncService.runSync` compares the users linked to a sign-in provider
with the provider's directory, and may suspend those it does not find.  The
valves of the service stand in the order of the code: the directory is read or
the run fails; an empty or shrunken directory is not believed; each identity of
the provider is judged by the entry it matches; what is found is written down as
findings; too many candidates abort the run; and then the findings that are old
enough are acted on one by one.

A run is one step here, as under the lock the job holds on its sync.  Revoking the
access of a suspended user is not part of the model, nor are the audit log and the
notifications.
-/

namespace Shellius

open Lib

/-! ## Rows -/

structure SsoConfig where
  id : Id
  orgId : Id
  isActive : Bool := true

structure UserIdentity where
  id : Id
  orgId : Id
  userId : Id
  ssoConfigId : Id
  externalId : Option String := none
  email : Option String := none
deriving DecidableEq

inductive SyncAction where
  | flag | suspend
deriving DecidableEq

structure DirectorySync where
  id : Id
  orgId : Id
  ssoConfigId : Id
  action : SyncAction := .flag
  dryRun : Bool := true
  maxSuspendPercent : Nat := 10
  maxSuspendCount : Nat := 25
  graceHours : Nat := 24

inductive RunStatus where
  | ok | aborted | failed
deriving DecidableEq

structure DirectorySyncRun where
  id : Id
  syncId : Id
  status : RunStatus
  startedAt : Millis
  directoryCount : Nat := 0
  matchedByExternalId : Nat := 0
  matchedByEmail : Nat := 0
  unknownIdentities : Nat := 0
  candidates : Nat := 0
  flagged : Nat := 0
  suspended : Nat := 0
  skipped : Nat := 0
  abortReason : Option String := none
  error : Option String := none

/-- Absent from the directory, or present and disabled. -/
inductive FindingReason where
  | missing | disabled
deriving DecidableEq

inductive FindingStatus where
  | «open» | resolved | acted | ignored
deriving DecidableEq

structure DirectorySyncFinding where
  syncId : Id
  userId : Id
  runId : Id
  reason : FindingReason
  status : FindingStatus := .open
  firstSeenAt : Millis
  lastSeenAt : Millis
  outcome : Option String := none

/-- The tables a run reads and writes; a sync has one finding a user at most. -/
structure SyncStore where
  tables : Tenancy
  ssoConfigs : List SsoConfig := []
  identities : List UserIdentity := []
  runs : List DirectorySyncRun := []
  findings : Keyed (fun f : DirectorySyncFinding ↦ (f.syncId, f.userId)) := .empty

/-! ## The directory -/

/-- An entry of a listing; the adapters always say whether it is enabled. -/
structure DirectoryEntry where
  externalId : Option String
  email : Option String
  enabled : Bool

/-- What an adapter returned, with what the run knows of the adapter. -/
structure Directory where
  /-- Whether the adapter tells disabled entries. -/
  reportsDisabled : Bool
  /-- `String.prototype.toLowerCase` -/
  lower : String → String
  entries : List DirectoryEntry

namespace Directory

variable (d : Directory)

/-- `byExternalId`; a later entry replaces an earlier one. -/
def byExternalId (externalId : String) : Option DirectoryEntry :=
  d.entries.reverse.find? fun e ↦ truthy e.externalId = some externalId

def byEmail (email : String) : Option DirectoryEntry :=
  d.entries.reverse.find? fun e ↦ (truthy e.email).map d.lower = some email

/-- `directoryHasEmails` -/
def hasEmails : Bool := d.entries.any fun e ↦ (truthy e.email).isSome

def emailOf (i : UserIdentity) : Option String := truthy ((truthy i.email).map d.lower)

def isDisabled (e : DirectoryEntry) : Bool := !e.enabled && d.reportsDisabled

inductive MatchedBy where
  | externalId | email
deriving DecidableEq

def «match» (i : UserIdentity) : Option (MatchedBy × DirectoryEntry) :=
  match (truthy i.externalId).bind d.byExternalId with
  | some e => some (.externalId, e)
  | none => ((d.emailOf i).bind d.byEmail).map fun e ↦ (.email, e)

end Directory

/-! ## Judging -/

inductive Verdict where
  | outOfScope
  | present
  | unknown
  | absent (reason : FindingReason)
deriving DecidableEq

/-- Only active humans are judged. -/
def isJudged (u : ScopedUser) : Bool :=
  u.deletedAt = none ∧ u.status = .active ∧ u.kind = .human

/-- What the loop of a run makes of an identity and its user. -/
def judge (d : Directory) (i : UserIdentity) (u : ScopedUser) : Verdict :=
  if ¬ isJudged u then .outOfScope
  else
    match d.match i with
    | some (_, e) => if d.isDisabled e then .absent .disabled else .present
    | none =>
      if truthy i.externalId = none ∧ (d.hasEmails = false ∨ d.emailOf i = none) then .unknown
      else .absent .missing

/-- A user who looks absent, through one identity. -/
structure Candidate where
  identity : UserIdentity
  user : ScopedUser
  reason : FindingReason

namespace SyncStore

variable (s : SyncStore) (row : DirectorySync) (d : Directory)

def people : List (UserIdentity × ScopedUser) :=
  (s.identities.filter fun i ↦ i.ssoConfigId = row.ssoConfigId ∧ i.orgId = row.orgId).filterMap
    fun i ↦ (s.tables.users.find i.userId).map fun u ↦ (i, u)

/-- The users with an identity of another active provider. -/
def elsewhere : List Id :=
  let configIds := (s.ssoConfigs.filter fun c ↦
    c.orgId = row.orgId ∧ c.isActive ∧ c.id ≠ row.ssoConfigId).map SsoConfig.id
  (s.identities.filter fun i ↦ i.orgId = row.orgId ∧ i.ssoConfigId ∈ configIds).map
    UserIdentity.userId

def candidates : List Candidate :=
  (s.people row).filterMap fun x ↦
    match judge d x.1 x.2 with
    | .absent reason => some ⟨x.1, x.2, reason⟩
    | _ => none

def stillPresent : List Id :=
  ((s.people row).filter fun x ↦ judge d x.1 x.2 = .present).map fun x ↦ x.2.id

/-- How many identities were matched in a way. -/
def matchedCount (how : Directory.MatchedBy) : Nat :=
  ((s.people row).filter fun x ↦ isJudged x.2 ∧ (d.match x.1).map Prod.fst = some how).length

/-- `unknownIdentities` -/
def unknownCount : Nat := ((s.people row).filter fun x ↦ judge d x.1 x.2 = .unknown).length

/-- The last run that went well on a directory with entries. -/
def lastGood : Option DirectorySyncRun :=
  (sortOn (fun r : DirectorySyncRun ↦ -r.startedAt) (s.runs.filter fun r ↦
    r.syncId = row.id ∧ r.status = .ok ∧ 0 < r.directoryCount)).head?

/-- The directory has less than half the entries of the last good run. -/
def hasShrunk : Bool := (s.lastGood row).any fun r ↦ 2 * d.entries.length < r.directoryCount

/-- The active humans of the organization. -/
def activeUsers : Nat :=
  (s.tables.users.rows.filter fun u ↦ u.orgId = row.orgId ∧ isJudged u).length

end SyncStore

/-! ## Findings -/

/-- Findings of people who turned up again are closed. -/
def resolveFinding (syncId : Id) (present : List Id) (f : DirectorySyncFinding) :
    DirectorySyncFinding :=
  { f with
    status := if f.syncId = syncId ∧ f.userId ∈ present ∧ f.status = .open then .resolved
      else f.status }

theorem resolveFinding_key {syncId : Id} {present : List Id} (f : DirectorySyncFinding) :
    ((resolveFinding syncId present f).syncId, (resolveFinding syncId present f).userId) =
      (f.syncId, f.userId) := rfl

/-- The update of an upsert: the row is open again, and `firstSeenAt` stays. -/
def reopenFinding (key : Id × Id) (runId : Id) (reason : FindingReason) (now : Millis)
    (f : DirectorySyncFinding) : DirectorySyncFinding :=
  if (f.syncId, f.userId) = key then { f with lastSeenAt := now, runId, reason, status := .open }
  else f

theorem reopenFinding_key {key : Id × Id} {runId : Id} {reason : FindingReason} {now : Millis}
    (f : DirectorySyncFinding) :
    ((reopenFinding key runId reason now f).syncId,
      (reopenFinding key runId reason now f).userId) = (f.syncId, f.userId) := by
  unfold reopenFinding
  split <;> rfl

def settleFinding (key : Id × Id) (status : FindingStatus) (outcome : String)
    (f : DirectorySyncFinding) : DirectorySyncFinding :=
  if (f.syncId, f.userId) = key then { f with status, outcome := some outcome } else f

theorem settleFinding_key {key : Id × Id} {status : FindingStatus} {outcome : String}
    (f : DirectorySyncFinding) :
    ((settleFinding key status outcome f).syncId, (settleFinding key status outcome f).userId) =
      (f.syncId, f.userId) := by
  unfold settleFinding
  split <;> rfl

abbrev Findings := Keyed fun f : DirectorySyncFinding ↦ (f.syncId, f.userId)

/-- `directorySyncFinding.upsert` -/
def upsertFinding (findings : Findings) (row : DirectorySync) (runId : Id) (now : Millis)
    (c : Candidate) : Findings :=
  match findings.insert? ⟨row.id, c.user.id, runId, c.reason, .open, now, now, none⟩ with
  | some findings' => findings'
  | none =>
    findings.update (reopenFinding (row.id, c.user.id) runId c.reason now) reopenFinding_key

/-! ## Acting -/

/-- The instants of a run: when it began, when it wrote the findings down, and when
it looked at the grace period. -/
structure RunClock where
  startedAt : Millis
  seenAt : Millis
  actedAt : Millis
  started_le : startedAt ≤ seenAt := by decide
  seen_le : seenAt ≤ actedAt := by decide

/-- `HOUR_MS` -/
def hourMs : Int := 60 * 60 * 1000

/-- A finding has outlasted the grace period. -/
def isEligible (row : DirectorySync) (clock : RunClock) (firstSeenAt : Millis) : Bool :=
  row.graceHours = 0 ∨ firstSeenAt ≤ clock.actedAt - row.graceHours * hourMs

def suspendUser (ids : List Id) (u : ScopedUser) : ScopedUser :=
  { u with status := if u.id ∈ ids then .suspended else u.status }

theorem suspendUser_id {ids : List Id} (u : ScopedUser) : (suspendUser ids u).id = u.id := rfl

def suspend (t : Tenancy) (ids : List Id) : Tenancy :=
  { t with users := t.users.update (suspendUser ids) suspendUser_id }

/-- A run while it acts. -/
structure Progress where
  tables : Tenancy
  findings : Findings
  flagged : Nat := 0
  suspended : Nat := 0
  skipped : Nat := 0

def Progress.settle (p : Progress) (row : DirectorySync) (c : Candidate) (status : FindingStatus)
    (outcome : String) : Findings :=
  p.findings.update (settleFinding (row.id, c.user.id) status outcome) settleFinding_key

def actOn (row : DirectorySync) (clock : RunClock) (elsewhere : List Id) (p : Progress)
    (item : Candidate × Millis) : Progress :=
  let c := item.1
  if ¬ isEligible row clock item.2 then { p with flagged := p.flagged + 1 }
  else if c.user.id ∈ elsewhere then
    { p with
      skipped := p.skipped + 1
      findings := p.settle row c .ignored
        "Still has a linked identity with another active sign-in provider" }
  else if ¬ (row.action = .suspend ∧ row.dryRun = false) then { p with flagged := p.flagged + 1 }
  else if c.user.role = .superAdmin ∧ activeSuperAdminCount p.tables row.orgId c.user.id = 0 then
    { p with
      skipped := p.skipped + 1
      findings := p.settle row c .open "Not suspended: this is the last active super admin" }
  else
    { p with
      tables := suspend p.tables [c.user.id]
      suspended := p.suspended + 1
      findings := p.settle row c .acted "Suspended and all access revoked" }

/-! ## The run -/

/-- The upserts of a run, with each candidate's `firstSeenAt`. -/
def recordFindings (row : DirectorySync) (runId : Id) (now : Millis) :
    Findings → List Candidate → Findings × List (Candidate × Millis)
  | findings, [] => (findings, [])
  | findings, c :: cs =>
    let findings' := upsertFinding findings row runId now c
    let firstSeenAt := ((findings'.find (row.id, c.user.id)).map fun f ↦ f.firstSeenAt).getD now
    let r := recordFindings row runId now findings' cs
    (r.1, (c, firstSeenAt) :: r.2)

/-- `Math.round` of the share of the active users that are candidates. -/
def percentOf (candidates activeUsers : Nat) : Nat :=
  if activeUsers = 0 then 0 else (200 * candidates + activeUsers) / (2 * activeUsers)

/-- Why a run with so many candidates stops, if it does. -/
def overLimit (row : DirectorySync) (candidates activeUsers : Nat) : Option String :=
  if row.maxSuspendCount < candidates then
    some (candidates.repr ++ " accounts look absent from the directory, more than the limit of " ++
      row.maxSuspendCount.repr ++
      ". Nothing was changed — review the findings before raising the limit.")
  else if 2 < candidates ∧ row.maxSuspendPercent < percentOf candidates activeUsers then
    some (candidates.repr ++ " of " ++ activeUsers.repr ++ " active accounts (" ++
      (percentOf candidates activeUsers).repr ++ "%) look absent from the directory, over the " ++
      row.maxSuspendPercent.repr ++ "% limit. Nothing was changed.")
  else none

/-- Why a listing is not believed, if it is not. -/
def SyncStore.disbelief (s : SyncStore) (row : DirectorySync) (d : Directory) : Option String :=
  if d.entries = [] then
    some "The directory returned no users at all, which is never a real answer. Nothing was changed."
  else if s.hasShrunk row d then
    some ("The directory returned " ++ d.entries.length.repr ++ " users, down from " ++
      (((s.lastGood row).map DirectorySyncRun.directoryCount).getD 0).repr ++
      " on the last successful run. A drop that large is far more often a paging or permission " ++
      "problem than real attrition, so nothing was changed.")
  else none

/-- The part of a run that judges: the findings, and what is done about them. -/
def SyncStore.reconcile (s : SyncStore) (row : DirectorySync) (d : Directory) (clock : RunClock)
    (runId : Id) : SyncStore :=
  let candidates := s.candidates row d
  let resolved := s.findings.update (resolveFinding row.id (s.stillPresent row d)) resolveFinding_key
  let recorded := recordFindings row runId clock.seenAt resolved candidates
  let run : DirectorySyncRun :=
    { id := runId, syncId := row.id, status := .ok, startedAt := clock.startedAt
      directoryCount := d.entries.length
      matchedByExternalId := s.matchedCount row d .externalId
      matchedByEmail := s.matchedCount row d .email
      unknownIdentities := s.unknownCount row d
      candidates := candidates.length }
  match overLimit row candidates.length (s.activeUsers row) with
  | some reason =>
    { s with
      findings := recorded.1
      runs := s.runs ++ [{ run with status := .aborted, abortReason := some reason }] }
  | none =>
    let p := recorded.2.foldl (actOn row clock (s.elsewhere row)) ⟨s.tables, recorded.1, 0, 0, 0⟩
    { s with
      tables := p.tables
      findings := p.findings
      runs := s.runs ++
        [{ run with flagged := p.flagged, suspended := p.suspended, skipped := p.skipped }] }

/-- `runSync`, with the id of the new run and what reading the directory gave. -/
def runSync (s : SyncStore) (row : DirectorySync) (reading : Except String Directory)
    (clock : RunClock) (runId : Id) : SyncStore :=
  match reading with
  | .error message =>
    { s with
      runs := s.runs ++ [{ id := runId, syncId := row.id, status := .failed,
                           startedAt := clock.startedAt, error := some message }] }
  | .ok d =>
    match s.disbelief row d with
    | some reason =>
      { s with
        runs := s.runs ++ [{ id := runId, syncId := row.id, status := .aborted,
                             startedAt := clock.startedAt, directoryCount := d.entries.length,
                             abortReason := some reason }] }
    | none => s.reconcile row d clock runId

/-! ## What a run does to users -/

section

variable {row : DirectorySync} {clock : RunClock} {elsewhere : List Id} {p : Progress}
  {items : List (Candidate × Millis)} {s : SyncStore} {d : Directory} {runId : Id}

theorem suspend_nil (t : Tenancy) : suspend t [] = t := by
  have hsame : t.users.update (suspendUser []) suspendUser_id = t.users := by
    refine Keyed.ext_rows ((List.map_congr_left fun u _ ↦ ?_).trans (List.map_id _))
    simp [suspendUser]
  rw [suspend, hsame]

theorem suspend_suspend (t : Tenancy) (ids ids' : List Id) :
    suspend (suspend t ids) ids' = suspend t (ids ++ ids') := by
  have hsame : (t.users.update (suspendUser ids) suspendUser_id).update (suspendUser ids')
      suspendUser_id = t.users.update (suspendUser (ids ++ ids')) suspendUser_id := by
    refine Keyed.ext_rows (List.map_map.trans (List.map_congr_left fun u _ ↦ ?_))
    by_cases h' : u.id ∈ ids' <;> by_cases h : u.id ∈ ids <;> simp [suspendUser, h, h']
  rw [suspend, suspend, suspend, hsame]

theorem mem_suspend {t : Tenancy} {ids : List Id} {u' : ScopedUser} :
    u' ∈ (suspend t ids).users ↔ ∃ u ∈ t.users, suspendUser ids u = u' :=
  Keyed.mem_update suspendUser_id

theorem find_suspend {t : Tenancy} {ids : List Id} {u : ScopedUser} (hu : u ∈ t.users) :
    (suspend t ids).users.find u.id = some (suspendUser ids u) := by
  rw [suspend, Keyed.find_update suspendUser_id]
  rw [show t.users.find u.id = some u from Keyed.find_key hu, Option.map_some]

/-- A user may be suspended next: a live run has an old enough finding, the user
has no other provider and is not the last active super admin. -/
structure MayAct (row : DirectorySync) (clock : RunClock) (elsewhere : List Id) (t : Tenancy)
    (item : Candidate × Millis) : Prop where
  live : row.action = .suspend ∧ row.dryRun = false
  eligible : isEligible row clock item.2 = true
  notElsewhere : item.1.user.id ∉ elsewhere
  notLast : item.1.user.role = .superAdmin →
    activeSuperAdminCount t row.orgId item.1.user.id ≠ 0

theorem actOn_tables (p : Progress) (item : Candidate × Millis) :
    (actOn row clock elsewhere p item).tables = p.tables ∨
      MayAct row clock elsewhere p.tables item ∧
        (actOn row clock elsewhere p item).tables = suspend p.tables [item.1.user.id] := by
  unfold actOn
  dsimp only
  split
  · exact .inl rfl
  · rename_i heligible
    split
    · exact .inl rfl
    · rename_i hother
      split
      · exact .inl rfl
      · rename_i hlive
        split
        · exact .inl rfl
        · rename_i hlast
          refine .inr ⟨⟨not_not.mp hlive, not_not.mp heligible, hother, fun hrole hcount ↦ ?_⟩, rfl⟩
          exact hlast ⟨hrole, hcount⟩

theorem foldl_actOn_tables {I : Tenancy → Prop} (h₀ : I p.tables)
    (hstep : ∀ t, ∀ item ∈ items, I t → MayAct row clock elsewhere t item →
      I (suspend t [item.1.user.id])) :
    I (items.foldl (actOn row clock elsewhere) p).tables := by
  induction items generalizing p with
  | nil => exact h₀
  | cons item items ih =>
    rw [List.foldl_cons]
    refine ih ?_ fun t item' hitem' ↦ hstep t item' (List.mem_cons_of_mem _ hitem')
    rcases actOn_tables p item with hsame | ⟨hmay, hdone⟩
    · rw [hsame]
      exact h₀
    · rw [hdone]
      exact hstep p.tables item List.mem_cons_self h₀ hmay

/-- The users that a run suspends: each has a finding of a live run that is old
enough and no other provider, and if one of them is a super admin, an active one
remains. -/
structure Acted (t : Tenancy) (row : DirectorySync) (clock : RunClock) (elsewhere : List Id)
    (items : List (Candidate × Millis)) (t' : Tenancy) (ids : List Id) : Prop where
  tables : t' = suspend t ids
  each : ∀ id ∈ ids, ∃ item ∈ items, item.1.user.id = id ∧
    (row.action = .suspend ∧ row.dryRun = false) ∧ isEligible row clock item.2 = true ∧
    id ∉ elsewhere
  superAdmin : (∃ u ∈ t.users, u.id ∈ ids ∧ u.role = .superAdmin) →
    ∃ v ∈ t'.users, isActiveSuperAdmin row.orgId v = true

theorem foldl_acted (p : Progress) (row : DirectorySync) (clock : RunClock) (elsewhere : List Id)
    (hitems : ∀ item ∈ items, item.1.user ∈ p.tables.users) :
    ∃ ids, Acted p.tables row clock elsewhere items
      (items.foldl (actOn row clock elsewhere) p).tables ids := by
  have hnone : Acted p.tables row clock elsewhere items p.tables [] :=
    ⟨(suspend_nil _).symm, fun _ hid ↦ absurd hid List.not_mem_nil,
      fun ⟨_, _, hid, _⟩ ↦ absurd hid List.not_mem_nil⟩
  refine foldl_actOn_tables (I := fun t ↦ ∃ ids, Acted p.tables row clock elsewhere items t ids)
    ⟨[], hnone⟩ ?_
  rintro t item hitem ⟨ids, hacted⟩ hmay
  have hdone : suspend t [item.1.user.id] = suspend p.tables (ids ++ [item.1.user.id]) := by
    rw [hacted.tables, suspend_suspend]
  refine ⟨ids ++ [item.1.user.id], hdone, fun id hid ↦ ?_, fun ⟨u, hu, hid, hrole⟩ ↦ ?_⟩
  · rcases List.mem_append.mp hid with hid | hid
    · exact hacted.each id hid
    · obtain rfl := List.mem_singleton.mp hid
      exact ⟨item, hitem, rfl, hmay.live, hmay.eligible, hmay.notElsewhere⟩
  · -- whoever is active after this suspension and not its user was so before
    have hkept : ∀ v ∈ t.users, isActiveSuperAdmin row.orgId v = true → v.id ≠ item.1.user.id →
        ∃ v ∈ (suspend t [item.1.user.id]).users, isActiveSuperAdmin row.orgId v = true := by
      intro v hv hactive hne
      have hsame : suspendUser [item.1.user.id] v = v := by
        have hstatus : v.id ∉ [item.1.user.id] := fun h ↦ hne (List.mem_singleton.mp h)
        rw [suspendUser, if_neg hstatus]
      exact ⟨v, mem_suspend.mpr ⟨v, hv, hsame⟩, hactive⟩
    by_cases hsuper : item.1.user.role = .superAdmin
    · obtain ⟨v, hv, hactive, hne⟩ := activeSuperAdminCount_ne_zero.mp (hmay.notLast hsuper)
      exact hkept v hv hactive hne
    · rcases List.mem_append.mp hid with hid | hid
      · obtain ⟨v, hv, hactive⟩ := hacted.superAdmin ⟨u, hu, hid, hrole⟩
        refine hkept v hv hactive fun hsame ↦ hsuper ?_
        rw [hacted.tables] at hv
        obtain ⟨w, hw, rfl⟩ := mem_suspend.mp hv
        rw [Keyed.ext (hitems item hitem) hw hsame.symm]
        exact (of_decide_eq_true hactive).2.1
      · have hsame : u.id = item.1.user.id := List.mem_singleton.mp hid
        rw [Keyed.ext hu (hitems item hitem) hsame] at hrole
        exact absurd hrole hsuper

/-! ### Candidates -/

theorem mem_people {i : UserIdentity} {u : ScopedUser} :
    (i, u) ∈ s.people row ↔ i ∈ s.identities ∧ i.ssoConfigId = row.ssoConfigId ∧
      i.orgId = row.orgId ∧ s.tables.users.find i.userId = some u := by
  simp only [SyncStore.people, List.mem_filterMap, List.mem_filter, decide_eq_true_eq,
    Option.map_eq_some_iff, Prod.mk.injEq]
  constructor
  · rintro ⟨i', ⟨hi, hconfig, horg⟩, u', hu, rfl, rfl⟩
    exact ⟨hi, hconfig, horg, hu⟩
  · rintro ⟨hi, hconfig, horg, hu⟩
    exact ⟨i, ⟨hi, hconfig, horg⟩, u, hu, rfl, rfl⟩

theorem mem_candidates {c : Candidate} :
    c ∈ s.candidates row d ↔
      (c.identity, c.user) ∈ s.people row ∧ judge d c.identity c.user = .absent c.reason := by
  simp only [SyncStore.candidates, List.mem_filterMap]
  constructor
  · rintro ⟨⟨i, u⟩, hmem, hc⟩
    dsimp only at hc
    split at hc
    · rename_i reason hjudge
      obtain rfl := Option.some.inj hc
      exact ⟨hmem, hjudge⟩
    · cases hc
  · rintro ⟨hmem, hjudge⟩
    refine ⟨(c.identity, c.user), hmem, ?_⟩
    dsimp only
    rw [hjudge]

theorem recordFindings_fst {findings : Findings} {now : Millis} {cs : List Candidate} :
    (recordFindings row runId now findings cs).2.map Prod.fst = cs := by
  induction cs generalizing findings with
  | nil => rfl
  | cons c cs ih =>
    rw [recordFindings, List.map_cons]
    exact congrArg (c :: ·) ih

/-! ### The clock of a finding

The grace period is counted from `firstSeenAt`, which the first upsert of a
finding sets and nothing touches afterwards. -/

def firstSeenAt? (findings : Findings) (key : Id × Id) : Option Millis :=
  (findings.find key).map DirectorySyncFinding.firstSeenAt

variable {findings : Findings} {now : Millis} {key : Id × Id} {c : Candidate} {cs : List Candidate}

theorem firstSeenAt?_update {f : DirectorySyncFinding → DirectorySyncFinding}
    (hf : ∀ x, ((f x).syncId, (f x).userId) = (x.syncId, x.userId))
    (hclock : ∀ x, (f x).firstSeenAt = x.firstSeenAt) :
    firstSeenAt? (findings.update f hf) key = firstSeenAt? findings key := by
  have hcomp : DirectorySyncFinding.firstSeenAt ∘ f = DirectorySyncFinding.firstSeenAt :=
    funext hclock
  rw [firstSeenAt?, Keyed.find_update hf, Option.map_map, hcomp, firstSeenAt?]

theorem firstSeenAt?_resolve {syncId : Id} {present : List Id} :
    firstSeenAt? (findings.update (resolveFinding syncId present) resolveFinding_key) key =
      firstSeenAt? findings key :=
  firstSeenAt?_update resolveFinding_key fun _ ↦ rfl

theorem firstSeenAt?_settle {k : Id × Id} {status : FindingStatus} {outcome : String} :
    firstSeenAt? (findings.update (settleFinding k status outcome) settleFinding_key) key =
      firstSeenAt? findings key := by
  refine firstSeenAt?_update settleFinding_key fun x ↦ ?_
  unfold settleFinding
  split <;> rfl

theorem firstSeenAt?_upsert :
    firstSeenAt? (upsertFinding findings row runId now c) key =
      if key = (row.id, c.user.id) then some ((firstSeenAt? findings key).getD now)
      else firstSeenAt? findings key := by
  unfold upsertFinding
  split
  · rename_i findings' hins
    obtain ⟨hfree, rfl⟩ := Keyed.insert?_eq_some.mp hins
    split
    · rename_i hkey
      have hnone : findings.find key = none := by
        rw [hkey]
        exact Keyed.find_eq_none.mpr hfree
      rw [firstSeenAt?, firstSeenAt?, hnone, hkey]
      exact congrArg _ (Keyed.find_insert_self hfree)
    · rename_i hkey
      rw [firstSeenAt?, Keyed.find_insert_of_ne hfree (Ne.symm hkey), firstSeenAt?]
  · rename_i hins
    rw [firstSeenAt?_update reopenFinding_key fun x ↦ by unfold reopenFinding; split <;> rfl]
    split
    · rename_i hkey
      obtain ⟨f, hf, hfkey⟩ := Keyed.insert?_eq_none.mp hins
      rw [firstSeenAt?, Keyed.find_eq_some.mpr ⟨hf, hfkey.trans hkey.symm⟩]
      rfl
    · rfl

theorem firstSeenAt?_upsert_self :
    firstSeenAt? (upsertFinding findings row runId now c) (row.id, c.user.id) =
      some ((firstSeenAt? findings (row.id, c.user.id)).getD now) := by
  rw [firstSeenAt?_upsert, if_pos rfl]

theorem firstSeenAt?_recordFindings :
    firstSeenAt? (recordFindings row runId now findings cs).1 key =
      if key.1 = row.id ∧ key.2 ∈ cs.map (fun c ↦ c.user.id) then
        some ((firstSeenAt? findings key).getD now)
      else firstSeenAt? findings key := by
  induction cs generalizing findings with
  | nil => simp [recordFindings]
  | cons c cs ih =>
    rw [recordFindings, ih, firstSeenAt?_upsert]
    obtain ⟨syncId, userId⟩ := key
    by_cases hsync : syncId = row.id <;> by_cases hid : userId = c.user.id <;>
      simp [hsync, hid]

theorem recordFindings_snd {item : Candidate × Millis}
    (h : item ∈ (recordFindings row runId now findings cs).2) :
    item.2 = (firstSeenAt? findings (row.id, item.1.user.id)).getD now := by
  induction cs generalizing findings with
  | nil => cases h
  | cons c cs ih =>
    rw [recordFindings] at h
    rcases List.mem_cons.mp h with rfl | h
    · show (firstSeenAt? _ _).getD now = _
      rw [firstSeenAt?_upsert_self, Option.getD_some]
    · rw [ih h, firstSeenAt?_upsert]
      split <;> simp

theorem firstSeenAt?_actOn {item : Candidate × Millis} :
    firstSeenAt? (actOn row clock elsewhere p item).findings key = firstSeenAt? p.findings key := by
  unfold actOn
  dsimp only
  split
  · rfl
  · split
    · exact firstSeenAt?_settle
    · split
      · rfl
      · split
        · exact firstSeenAt?_settle
        · exact firstSeenAt?_settle

theorem firstSeenAt?_foldl_actOn :
    firstSeenAt? (items.foldl (actOn row clock elsewhere) p).findings key =
      firstSeenAt? p.findings key := by
  induction items generalizing p with
  | nil => rfl
  | cons item items ih => rw [List.foldl_cons, ih, firstSeenAt?_actOn]

theorem firstSeenAt?_reconcile :
    firstSeenAt? (s.reconcile row d clock runId).findings key =
      if key.1 = row.id ∧ key.2 ∈ (s.candidates row d).map (fun c ↦ c.user.id) then
        some ((firstSeenAt? s.findings key).getD clock.seenAt)
      else firstSeenAt? s.findings key := by
  unfold SyncStore.reconcile
  dsimp only
  split
  · dsimp only
    rw [firstSeenAt?_recordFindings, firstSeenAt?_resolve]
  · dsimp only
    rw [firstSeenAt?_foldl_actOn, firstSeenAt?_recordFindings, firstSeenAt?_resolve]

/-! ### What a run did -/

/-- What a run did that acted on a listing: it suspended some of the candidates,
each by a finding that is old enough, and left an active super admin if it
suspended a super admin. -/
structure Deprovisioned (s : SyncStore) (row : DirectorySync) (d : Directory) (clock : RunClock)
    (t' : Tenancy) (ids : List Id) : Prop where
  tables : t' = suspend s.tables ids
  believed : s.disbelief row d = none
  inLimits : overLimit row (s.candidates row d).length (s.activeUsers row) = none
  live : ids ≠ [] → row.action = .suspend ∧ row.dryRun = false
  each : ∀ id ∈ ids, (∃ c ∈ s.candidates row d, c.user.id = id) ∧
    isEligible row clock ((firstSeenAt? s.findings (row.id, id)).getD clock.seenAt) = true ∧
    id ∉ s.elsewhere row
  superAdmin : (∃ u ∈ s.tables.users, u.id ∈ ids ∧ u.role = .superAdmin) →
    ∃ v ∈ t'.users, isActiveSuperAdmin row.orgId v = true

theorem foldl_deprovisioned (hbelieved : s.disbelief row d = none)
    (hlimit : overLimit row (s.candidates row d).length (s.activeUsers row) = none) :
    ∃ ids, Deprovisioned s row d clock
      (((recordFindings row runId clock.seenAt
        (s.findings.update (resolveFinding row.id (s.stillPresent row d)) resolveFinding_key)
        (s.candidates row d)).2.foldl (actOn row clock (s.elsewhere row))
          ⟨s.tables, findings, 0, 0, 0⟩).tables) ids := by
  have hcandidate : ∀ item ∈ (recordFindings row runId clock.seenAt
      (s.findings.update (resolveFinding row.id (s.stillPresent row d)) resolveFinding_key)
      (s.candidates row d)).2, item.1 ∈ s.candidates row d := by
    intro item hitem
    have hmem := List.mem_map_of_mem (f := Prod.fst) hitem
    rwa [recordFindings_fst] at hmem
  have hitems : ∀ item ∈ (recordFindings row runId clock.seenAt
      (s.findings.update (resolveFinding row.id (s.stillPresent row d)) resolveFinding_key)
      (s.candidates row d)).2, item.1.user ∈ s.tables.users := by
    intro item hitem
    obtain ⟨-, -, -, hu⟩ := mem_people.mp (mem_candidates.mp (hcandidate item hitem)).1
    exact Keyed.mem_of_find hu
  obtain ⟨ids, hacted⟩ := foldl_acted ⟨s.tables, findings, 0, 0, 0⟩ row clock (s.elsewhere row) hitems
  refine ⟨ids, hacted.tables, hbelieved, hlimit, fun hne ↦ ?_, fun id hid ↦ ?_, hacted.superAdmin⟩
  · obtain ⟨id, hid⟩ := List.exists_mem_of_ne_nil ids hne
    obtain ⟨-, -, -, hlive, -⟩ := hacted.each id hid
    exact hlive
  · obtain ⟨item, hitem, rfl, -, heligible, hother⟩ := hacted.each id hid
    rw [recordFindings_snd hitem, firstSeenAt?_resolve] at heligible
    exact ⟨⟨item.1, hcandidate item hitem, rfl⟩, heligible, hother⟩

theorem runSync_cases (s : SyncStore) (row : DirectorySync) (reading : Except String Directory)
    (clock : RunClock) (runId : Id) :
    (∃ run, (runSync s row reading clock runId).runs = s.runs ++ [run] ∧ run.status ≠ .ok ∧
      (runSync s row reading clock runId).tables = s.tables) ∨
    ∃ d run ids, reading = .ok d ∧ (runSync s row reading clock runId).runs = s.runs ++ [run] ∧
      run.status = .ok ∧
      Deprovisioned s row d clock (runSync s row reading clock runId).tables ids := by
  unfold runSync
  cases reading with
  | error message => exact .inl ⟨_, rfl, nofun, rfl⟩
  | ok d =>
    dsimp only
    split
    · exact .inl ⟨_, rfl, nofun, rfl⟩
    · rename_i hbelieved
      unfold SyncStore.reconcile
      dsimp only
      split
      · exact .inl ⟨_, rfl, nofun, rfl⟩
      · rename_i hlimit
        obtain ⟨ids, hids⟩ := foldl_deprovisioned hbelieved hlimit
        exact .inr ⟨d, _, ids, rfl, rfl, rfl, hids⟩

theorem runSync_changed {reading : Except String Directory} {u : ScopedUser}
    (hu : u ∈ s.tables.users)
    (hchanged : (runSync s row reading clock runId).tables.users.find u.id ≠ some u) :
    ∃ d ids, reading = .ok d ∧ u.id ∈ ids ∧
      (runSync s row reading clock runId).tables.users.find u.id =
        some { u with status := .suspended } ∧
      Deprovisioned s row d clock (runSync s row reading clock runId).tables ids := by
  rcases runSync_cases s row reading clock runId with ⟨-, -, -, hsame⟩ |
    ⟨d, -, ids, hreading, -, -, hdone⟩
  · rw [hsame] at hchanged
    exact absurd (Keyed.find_key hu) hchanged
  · have hfind : (runSync s row reading clock runId).tables.users.find u.id =
        some (suspendUser ids u) := by
      rw [hdone.tables]
      exact find_suspend hu
    by_cases hid : u.id ∈ ids
    · rw [suspendUser, if_pos hid] at hfind
      exact ⟨d, ids, hreading, hid, hfind, hdone⟩
    · rw [suspendUser, if_neg hid] at hfind
      exact absurd hfind hchanged

end

end Shellius
