import Shellius.Lib.Dict
import Shellius.Lib.Select
import Shellius.Posture.Findings

/-!
# Reports of a host

`postureService.ingest`: a report is kept, and if it is newer than all others the listeners, the
services and the findings of the host are replaced by its own.  An ingest may fail on the way; what
it does in its transaction is done or not done as a whole, but the report has been kept before.
-/

namespace Shellius.Posture

open Lib

/-! ## What is stored -/

/-- A report; `collectedAt` and all instants are in milliseconds. -/
structure Payload extends Facts where
  collectedAt : Int
  agentVersion : Option String := none
  collectorOk : Bool := true
  degradedReason : Option String := none

structure FirewallSummary where
  engine : Engine
  active : Bool
  defaultIncoming : Policy
  parsed : Bool
  ruleCount : Nat

/-- A report that is kept; its place in the list is its id. -/
structure HostSnapshot where
  collectedAt : Int
  agentVersion : Option String
  collectorOk : Bool
  degradedReason : Option String
  firewall : FirewallSummary
  raw : Payload

structure HostListener where
  snapshotId : Nat
  proto : Proto
  bind : String
  port : Nat
  containerPort : Option Nat
  bindClass : BindClass
  reachability : Reachability
  service : Option String
  ownerKind : String
  ownerName : String
  ownerDetail : Option String
  ownerRef : Option String
  ownerUser : Option String
  process : Option String
  sourcePath : Option String
  pid : Option Int

structure HostService where
  snapshotId : Nat
  kind : String
  name : String
  ref : Option String
  state : String
  running : Bool
  statusText : Option String
  detail : Option String
  sourcePath : Option String
  ports : List DeclaredPort
  exitCode : Option Int

/-- A row of the findings; its code, protocol and port are its own. -/
structure ExposureFinding extends Finding where
  firstSeenAt : Int
  lastSeenAt : Int
  resolvedAt : Option Int := none
  acknowledgedAt : Option Int := none
  acknowledgedById : Option String := none
deriving DecidableEq

structure Host where
  snapshots : List HostSnapshot := []
  listeners : List HostListener := []
  services : List HostService := []
  findings : List ExposureFinding := []
  /-- `postureRejectedAt` and `postureRejectReason` -/
  rejected : Option (Int × String) := none

/-! ## The findings -/

inductive FindingEvent where
  | opened (finding : Finding)
  | reopened (finding : Finding)
  | severity_increased (finding : Finding) (was : Severity)
  | resolved (finding : Finding)

structure Summary where
  opened : Nat := 0
  continuing : Nat := 0
  reopened : Nat := 0
  resolved : Nat := 0

/-- `SEVERITY_RANK` -/
def Severity.rank : Severity → Nat
  | .INFO => 0
  | .LOW => 1
  | .MEDIUM => 2
  | .HIGH => 3
  | .CRITICAL => 4

/-- The findings in the transaction, and what has happened to them. -/
structure Tx where
  findings : List ExposureFinding
  summary : Summary := {}
  events : List FindingEvent := []

def ExposureFinding.key (row : ExposureFinding) : String := row.toFinding.key

def createFinding (now : Int) (incoming : Finding) : ExposureFinding :=
  { toFinding := incoming, firstSeenAt := now, lastSeenAt := now }

/-- What a report says of a finding that is stored already. -/
def ExposureFinding.say (row : ExposureFinding) (incoming : Finding) : ExposureFinding :=
  { row with
    severity := incoming.severity
    service := incoming.service
    ownerLabel := incoming.ownerLabel
    message := incoming.message
    detail := incoming.detail }

/-- A finding that was resolved is there again. -/
def ExposureFinding.reopen (now : Int) (incoming : Finding) (row : ExposureFinding) : ExposureFinding :=
  { row.say incoming with
    firstSeenAt := now
    lastSeenAt := now
    resolvedAt := none
    acknowledgedAt := none
    acknowledgedById := none }

/-- A finding that is open is still there. -/
def ExposureFinding.continue (now : Int) (incoming : Finding) (row : ExposureFinding) :
    ExposureFinding :=
  { row.say incoming with lastSeenAt := now }

def ExposureFinding.close (now : Int) (row : ExposureFinding) : ExposureFinding :=
  { row with resolvedAt := some now }

def ownerChanged (existing incoming : Finding) : Bool :=
  existing.ownerLabel ≠ none ∧ incoming.ownerLabel ≠ none ∧ existing.ownerLabel ≠ incoming.ownerLabel

/-- The first loop: a finding of the report is opened, reopened or continued. -/
def Tx.incoming (now : Int) (existingByKey : Dict String ExposureFinding) (tx : Tx)
    (entry : String × Finding) : Tx :=
  let (key, incoming) := entry
  match existingByKey.get key with
  | none =>
    { findings := tx.findings ++ [createFinding now incoming]
      summary := { tx.summary with opened := tx.summary.opened + 1 }
      events := tx.events ++ [.opened incoming] }
  | some existing =>
    if existing.resolvedAt.isSome then
      { findings := modify ExposureFinding.key existing.key
          (ExposureFinding.reopen now incoming) tx.findings
        summary := { tx.summary with reopened := tx.summary.reopened + 1 }
        events := tx.events ++ [.reopened incoming] }
    else if ownerChanged existing.toFinding incoming then
      { findings := (tx.findings.filter fun row ↦ row.key ≠ existing.key) ++
          [createFinding now incoming]
        summary := { tx.summary with opened := tx.summary.opened + 1 }
        events := tx.events ++ [.opened incoming] }
    else
      { findings := modify ExposureFinding.key existing.key
          (ExposureFinding.continue now incoming) tx.findings
        summary := { tx.summary with continuing := tx.summary.continuing + 1 }
        events := tx.events ++
          if existing.severity.rank < incoming.severity.rank then
            [.severity_increased incoming existing.severity]
          else [] }

/-- The second loop: an open finding that the report does not have is resolved. -/
def Tx.resolve (now : Int) (newByKey : Dict String Finding) (tx : Tx)
    (entry : String × ExposureFinding) : Tx :=
  let (key, existing) := entry
  if existing.resolvedAt = none ∧ newByKey.get key = none then
    { findings := modify ExposureFinding.key existing.key (ExposureFinding.close now) tx.findings
      summary := { tx.summary with resolved := tx.summary.resolved + 1 }
      events := tx.events ++ [.resolved existing.toFinding] }
  else tx

def newByKey (findings : List Finding) : Dict String Finding :=
  Dict.ofList (findings.map fun f ↦ (f.key, f))

def transact (now : Int) (existingAll : List ExposureFinding) (findings : List Finding) : Tx :=
  let existingByKey := Dict.ofList (existingAll.map fun f ↦ (f.key, f))
  existingByKey.foldl (Tx.resolve now (newByKey findings))
    ((newByKey findings).foldl (Tx.incoming now existingByKey) { findings := existingAll })

/-! ## The ingest of a report -/

def Payload.snapshot (p : Payload) : HostSnapshot where
  collectedAt := p.collectedAt
  agentVersion := p.agentVersion.filter (· ≠ "")
  collectorOk := p.collectorOk
  degradedReason := p.degradedReason.filter (· ≠ "")
  firewall := {
    engine := p.firewall.engine
    active := p.firewall.active
    defaultIncoming := p.firewall.defaultIncoming
    parsed := p.firewall.parsed
    ruleCount := p.firewall.rules.length }
  raw := p

def hostListener (snapshotId : Nat) (l : Enriched) : HostListener where
  snapshotId := snapshotId
  proto := l.proto
  bind := l.bind
  port := l.port
  containerPort := l.containerPort
  bindClass := l.bindClass
  reachability := l.reachability
  service := l.service
  ownerKind := l.ownerKind
  ownerName := l.ownerName
  ownerDetail := l.ownerDetail
  ownerRef := l.ownerRef
  ownerUser := l.ownerUser
  process := l.process.map fun s ↦ .ofList (slice 128 s.toList)
  sourcePath := l.sourcePath
  pid := l.pid

def hostService (snapshotId : Nat) (svc : Service) : HostService where
  snapshotId := snapshotId
  kind := svc.kind.nonempty.getD "unknown"
  name := (svc.name.nonempty <|> svc.ref.nonempty).getD "unknown"
  ref := svc.ref.nonempty
  state := if svc.state = "" then "unknown" else svc.state
  running := svc.running
  statusText := svc.statusText.nonempty
  detail := svc.detail.nonempty
  sourcePath := svc.sourcePath.nonempty
  ports := svc.ports
  exitCode := svc.exitCode

inductive Stop where
  | start
  /-- What was refused before is forgotten. -/
  | cleared
  | created
deriving DecidableEq

/-- What an ingest returns, and the alerts it sends. -/
structure Result where
  snapshotId : Nat
  outOfOrder : Bool
  listenersReplaced : Bool
  findings : Summary
  events : List FindingEvent

/-- `collectedAt` of the newest report. -/
def Host.latest (h : Host) : Option Int := (h.snapshots.map (·.collectedAt)).max?

/-- A report that is not newer than the newest one. -/
def Host.outOfOrder (h : Host) (collectedAt : Int) : Bool :=
  h.latest.any fun latest ↦ collectedAt ≤ latest

/-- `ingest`; there is no result when it fails. -/
def ingest (settings : Settings) (now : Int) (stop : Option Stop) (payload : Payload) (h : Host) :
    Host × Option Result :=
  let outOfOrder := h.outOfOrder payload.collectedAt
  if stop = some .start then (h, none)
  else if stop = some .cleared then ({ h with rejected := none }, none)
  else
    let snapshotId := h.snapshots.length
    let kept := { h with rejected := none, snapshots := h.snapshots ++ [payload.snapshot] }
    if stop = some .created then (kept, none)
    else if outOfOrder then (kept, some ⟨snapshotId, true, false, {}, []⟩)
    else
      let computed := computeFindings payload.toFacts settings
      let tx := transact now h.findings computed.findings
      ({ kept with
          listeners := computed.listeners.map (hostListener snapshotId)
          services := payload.services.map (hostService snapshotId)
          findings := tx.findings },
        some ⟨snapshotId, false, true, tx.summary, tx.events⟩)

def recordRejectedSnapshot (now : Int) (details : List String) (h : Host) : Host :=
  let reason := "; ".intercalate ((details.filter (· ≠ "")).take 5)
  let reason := String.ofList (slice 1000 reason.toList)
  { h with rejected := some (now, if reason = "" then "snapshot refused" else reason) }

/-! ## Runs -/

/-- An ingest, as far as it gets. -/
structure Attempt where
  payload : Payload
  now : Int
  stop : Option Stop := none

inductive Event where
  | report (attempt : Attempt)
  | refused (now : Int) (details : List String)

def step (settings : Settings) (h : Host) : Event → Host
  | .report a => (ingest settings a.now a.stop a.payload h).1
  | .refused now details => recordRejectedSnapshot now details h

def run (settings : Settings) (events : List Event) : Host := events.foldl (step settings) {}

/-- An ingest that gets so far that the report is kept. -/
def Event.kept : Event → Option Attempt
  | .report a => if a.stop = some .start ∨ a.stop = some .cleared then none else some a
  | .refused _ _ => none

def openFindings (rows : List ExposureFinding) : List Finding :=
  (rows.filter fun row ↦ row.resolvedAt = none).map (·.toFinding)

/-- Two hosts have the same listeners, services and open findings; the rows may be of different
reports, and the findings in a different order. -/
def Host.Agrees (h h' : Host) : Prop :=
  h.listeners.map (fun l ↦ { l with snapshotId := 0 }) =
      h'.listeners.map (fun l ↦ { l with snapshotId := 0 }) ∧
    h.services.map (fun s ↦ { s with snapshotId := 0 }) =
      h'.services.map (fun s ↦ { s with snapshotId := 0 }) ∧
    (openFindings h.findings).Perm (openFindings h'.findings)

variable {rows existingAll : List ExposureFinding} {row existing : ExposureFinding} {now : Int}
  {f incoming : Finding} {findings : List Finding} {k j : String} {tx : Tx}

/-! ## What the transaction does to the findings -/

theorem ExposureFinding.say_toFinding (h : row.key = incoming.key) :
    (row.say incoming).toFinding = incoming := by
  obtain ⟨hcode, hproto, hport⟩ := findingKey_injective h
  show (⟨row.code, incoming.severity, row.proto, row.port, incoming.ownerLabel, incoming.service,
    incoming.message, incoming.detail⟩ : Finding) = incoming
  rw [hcode, hproto, hport]

theorem modify_rows {g : ExposureFinding → ExposureFinding}
    (hrows : (rows.map ExposureFinding.key).Nodup)
    (hlookup : lookup ExposureFinding.key k rows = some existing) (hg : ∀ row, (g row).key = row.key) :
    ((modify ExposureFinding.key k g rows).map ExposureFinding.key).Nodup ∧
      ∀ j, lookup ExposureFinding.key j (modify ExposureFinding.key k g rows) =
        if j = k then some (g existing) else lookup ExposureFinding.key j rows := by
  constructor
  · rw [map_modify fun row _ _ ↦ hg row]
    exact hrows
  · intro j
    rw [lookup_modify fun row hk ↦ (hg row).trans hk, hlookup]
    rfl

theorem append_rows (row : ExposureFinding) (hrows : (rows.map ExposureFinding.key).Nodup)
    (hlookup : lookup ExposureFinding.key row.key rows = none) :
    ((rows ++ [row]).map ExposureFinding.key).Nodup ∧
      ∀ j, lookup ExposureFinding.key j (rows ++ [row]) =
        if j = row.key then some row else lookup ExposureFinding.key j rows := by
  constructor
  · rw [List.map_append]
    refine List.nodup_append.mpr ⟨hrows, List.nodup_singleton _, ?_⟩
    rintro key hkey key' hkey' rfl
    obtain ⟨row', hrow', rfl⟩ := List.mem_map.mp hkey
    exact lookup_eq_none.mp hlookup row' hrow' (List.mem_singleton.mp hkey')
  · intro j
    rw [lookup_append_singleton]
    by_cases hj : j = row.key
    · rw [if_pos hj, hj, hlookup, if_pos rfl]
      rfl
    · rw [if_neg hj, if_neg (Ne.symm hj), Option.or_none]

/-- A finding of the report is open afterwards, whatever there was before. -/
theorem Tx.incoming_cases {existingByKey : Dict String ExposureFinding}
    (hrows : (tx.findings.map ExposureFinding.key).Nodup)
    (hexisting : existingByKey.get incoming.key = lookup ExposureFinding.key incoming.key tx.findings) :
    ((tx.incoming now existingByKey (incoming.key, incoming)).findings.map
        ExposureFinding.key).Nodup ∧
      ∃ row : ExposureFinding, row.resolvedAt = none ∧ row.toFinding = incoming ∧
        ∀ j, lookup ExposureFinding.key j
            (tx.incoming now existingByKey (incoming.key, incoming)).findings =
          if j = incoming.key then some row else lookup ExposureFinding.key j tx.findings := by
  unfold Tx.incoming
  dsimp only
  rw [hexisting]
  cases hlookup : lookup ExposureFinding.key incoming.key tx.findings with
  | none =>
    obtain ⟨hnodup, hrow⟩ := append_rows (createFinding now incoming) hrows hlookup
    exact ⟨hnodup, _, rfl, rfl, hrow⟩
  | some existing =>
    obtain ⟨-, hkey⟩ := lookup_spec hlookup
    dsimp only
    rw [hkey]
    split
    · obtain ⟨hnodup, hrow⟩ := modify_rows (g := ExposureFinding.reopen now incoming) hrows hlookup
        fun _ ↦ rfl
      exact ⟨hnodup, existing.reopen now incoming, rfl, ExposureFinding.say_toFinding hkey, hrow⟩
    · rename_i hopen
      split
      · -- the old row is deleted, and one with the same key is created
        have hfilter : ((tx.findings.filter fun row ↦ row.key ≠ incoming.key).map
            ExposureFinding.key).Nodup := hrows.sublist (List.filter_sublist.map _)
        have hnone : lookup ExposureFinding.key (createFinding now incoming).key
            (tx.findings.filter fun row ↦ row.key ≠ incoming.key) = none := by
          rw [lookup_filter_ne]
          exact if_pos rfl
        obtain ⟨hnodup, hrow⟩ := append_rows _ hfilter hnone
        refine ⟨hnodup, createFinding now incoming, rfl, rfl, fun j ↦ ?_⟩
        have hcreated : (createFinding now incoming).key = incoming.key := rfl
        rw [hrow j, hcreated, lookup_filter_ne]
        by_cases hj : j = incoming.key
        · simp only [hj, if_true]
        · simp only [hj, if_false]
      · obtain ⟨hnodup, hrow⟩ := modify_rows (g := ExposureFinding.continue now incoming) hrows
          hlookup fun _ ↦ rfl
        exact ⟨hnodup, existing.continue now incoming, Option.not_isSome_iff_eq_none.mp hopen,
          ExposureFinding.say_toFinding hkey, hrow⟩

theorem foldl_incoming (now : Int) (existingByKey : Dict String ExposureFinding)
    (entries : Dict String Finding) (tx : Tx) (hentries : (entries.map Prod.fst).Nodup) (hkeys : ∀ e ∈ entries, e.2.key = e.1)
    (hrows : (tx.findings.map ExposureFinding.key).Nodup)
    (hexisting : ∀ k ∈ entries.map Prod.fst,
      existingByKey.get k = lookup ExposureFinding.key k tx.findings) :
    let tx' := entries.foldl (Tx.incoming now existingByKey) tx
    (tx'.findings.map ExposureFinding.key).Nodup ∧
      (∀ k, k ∉ entries.map Prod.fst →
        lookup ExposureFinding.key k tx'.findings = lookup ExposureFinding.key k tx.findings) ∧
      ∀ e ∈ entries, ∃ row : ExposureFinding, row.resolvedAt = none ∧ row.toFinding = e.2 ∧
        lookup ExposureFinding.key e.1 tx'.findings = some row := by
  induction entries generalizing tx with
  | nil => exact ⟨hrows, fun _ _ ↦ rfl, fun e he ↦ absurd he List.not_mem_nil⟩
  | cons e entries ih =>
    obtain ⟨k, incoming⟩ := e
    have hkey : incoming.key = k := hkeys (k, incoming) List.mem_cons_self
    subst hkey
    rw [List.map_cons, List.nodup_cons] at hentries
    obtain ⟨hnot, hentries⟩ := hentries
    obtain ⟨hnodup, row, hopen, hfinding, hrow⟩ :=
      Tx.incoming_cases hrows (hexisting incoming.key (by simp))
    have hexisting' : ∀ k ∈ entries.map Prod.fst, existingByKey.get k =
        lookup ExposureFinding.key k
          (tx.incoming now existingByKey (incoming.key, incoming)).findings := by
      intro k hk
      have hne : k ≠ incoming.key := fun h ↦ hnot (h ▸ hk)
      rw [hrow k, if_neg hne]
      exact hexisting k (List.mem_cons_of_mem _ hk)
    obtain ⟨hnodup', hrest, hopened⟩ :=
      ih _ hentries (fun e he ↦ hkeys e (List.mem_cons_of_mem _ he)) hnodup hexisting'
    refine ⟨hnodup', fun k hk ↦ ?_, fun e he ↦ ?_⟩
    · rw [List.map_cons, List.mem_cons, not_or] at hk
      refine (hrest k hk.2).trans ?_
      rw [hrow k, if_neg hk.1]
    · obtain rfl | he := List.mem_cons.mp he
      · refine ⟨row, hopen, hfinding, (hrest _ hnot).trans ?_⟩
        rw [hrow _, if_pos rfl]
      · exact hopened e he

/-- After the second loop what the report does not have is resolved. -/
theorem foldl_resolve (now : Int) (newByKey : Dict String Finding)
    (entries : Dict String ExposureFinding) (tx : Tx) (hkeys : ∀ e ∈ entries, e.2.key = e.1) (hrows : (tx.findings.map ExposureFinding.key).Nodup)
    (hold : ∀ k row, newByKey.get k = none → lookup ExposureFinding.key k tx.findings = some row →
      row.resolvedAt = none → (k, row) ∈ entries) :
    let tx' := entries.foldl (Tx.resolve now newByKey) tx
    (tx'.findings.map ExposureFinding.key).Nodup ∧
      (∀ k, newByKey.get k ≠ none →
        lookup ExposureFinding.key k tx'.findings = lookup ExposureFinding.key k tx.findings) ∧
      ∀ k row, newByKey.get k = none → lookup ExposureFinding.key k tx'.findings = some row →
        row.resolvedAt ≠ none := by
  induction entries generalizing tx with
  | nil =>
    exact ⟨hrows, fun _ _ ↦ rfl, fun k row hk hrow hopen ↦
      absurd (hold k row hk hrow hopen) List.not_mem_nil⟩
  | cons e entries ih =>
    obtain ⟨k, existing⟩ := e
    have hkey : existing.key = k := hkeys (k, existing) List.mem_cons_self
    subst hkey
    have hkeys' : ∀ e ∈ entries, e.2.key = e.1 := fun e he ↦ hkeys e (List.mem_cons_of_mem _ he)
    rw [List.foldl_cons]
    by_cases hresolve : existing.resolvedAt = none ∧ newByKey.get existing.key = none
    · have hstep : (tx.resolve now newByKey (existing.key, existing)).findings =
          modify ExposureFinding.key existing.key (ExposureFinding.close now) tx.findings := by
        unfold Tx.resolve
        dsimp only
        rw [if_pos hresolve]
      have hlookup : ∀ j, lookup ExposureFinding.key j
          (tx.resolve now newByKey (existing.key, existing)).findings =
            if j = existing.key then
              (lookup ExposureFinding.key existing.key tx.findings).map (ExposureFinding.close now)
            else lookup ExposureFinding.key j tx.findings := by
        intro j
        rw [hstep]
        exact lookup_modify fun row hk ↦ hk
      have hnodup : ((tx.resolve now newByKey (existing.key, existing)).findings.map
          ExposureFinding.key).Nodup := by
        have hkey : ∀ row : ExposureFinding, (row.close now).key = row.key := fun _ ↦ rfl
        rw [hstep, map_modify fun row _ _ ↦ hkey row]
        exact hrows
      obtain ⟨hnodup', hrest, hresolved⟩ := ih _ hkeys' hnodup (by
        intro k row hk hrow hopen
        rw [hlookup k] at hrow
        split at hrow
        · obtain ⟨row', -, rfl⟩ := Option.map_eq_some_iff.mp hrow
          cases hopen
        · rename_i hne
          obtain he | he := List.mem_cons.mp (hold k row hk hrow hopen)
          · exact absurd (congrArg Prod.fst he) hne
          · exact he)
      refine ⟨hnodup', fun k hk ↦ (hrest k hk).trans ?_, hresolved⟩
      have hne : k ≠ existing.key := fun h ↦ hk (h ▸ hresolve.2)
      rw [hlookup k, if_neg hne]
    · have hstep : tx.resolve now newByKey (existing.key, existing) = tx := by
        unfold Tx.resolve
        exact if_neg hresolve
      rw [hstep]
      refine ih tx hkeys' hrows fun k row hk hrow hopen ↦ ?_
      obtain he | he := List.mem_cons.mp (hold k row hk hrow hopen)
      · obtain ⟨rfl, rfl⟩ := Prod.mk.inj he
        exact absurd ⟨hopen, hk⟩ hresolve
      · exact he

theorem nodup_newByKey : ((newByKey findings).map Prod.fst).Nodup := Dict.nodup_ofList

theorem key_of_mem_newByKey {e : String × Finding} (h : e ∈ newByKey findings) : e.2.key = e.1 := by
  obtain ⟨f, -, rfl⟩ := List.mem_map.mp (Dict.mem_of_mem_ofList h)
  rfl

theorem mem_openFindings : f ∈ openFindings rows ↔
    ∃ row ∈ rows, row.resolvedAt = none ∧ row.toFinding = f := by
  unfold openFindings
  simp only [List.mem_map, List.mem_filter, decide_eq_true_eq, and_assoc]

theorem transact_spec (now : Int) (findings : List Finding) (hrows : (existingAll.map ExposureFinding.key).Nodup) :
    ((transact now existingAll findings).findings.map ExposureFinding.key).Nodup ∧
      ∀ f, f ∈ openFindings (transact now existingAll findings).findings ↔
        (f.key, f) ∈ newByKey findings := by
  have hexisting : ∀ k, Dict.get (Dict.ofList (existingAll.map fun f ↦ (f.key, f))) k =
      lookup ExposureFinding.key k existingAll := fun k ↦ Dict.get_ofList_map hrows
  obtain ⟨hnodup₁, hrest₁, hopened⟩ := foldl_incoming now
    (Dict.ofList (existingAll.map fun f ↦ (f.key, f))) (newByKey findings) { findings := existingAll }
    nodup_newByKey (fun e he ↦ key_of_mem_newByKey he) hrows
    (fun k _ ↦ hexisting k)
  obtain ⟨hnodup₂, hrest₂, hresolved⟩ := foldl_resolve now (newByKey findings)
    (Dict.ofList (existingAll.map fun f ↦ (f.key, f))) _
    (by
      intro e he
      obtain ⟨row, -, rfl⟩ := List.mem_map.mp (Dict.mem_of_mem_ofList he)
      rfl)
    hnodup₁
    (by
      intro k row hk hrow _
      rw [hrest₁ k (Dict.get_eq_none_iff.mp hk)] at hrow
      exact Dict.mem_of_get ((hexisting k).trans hrow))
  refine ⟨hnodup₂, fun f ↦ ⟨fun hf ↦ ?_, fun hf ↦ ?_⟩⟩
  · obtain ⟨row, hrow, hopen, rfl⟩ := mem_openFindings.mp hf
    have hlookup := lookup_of_mem hnodup₂ hrow
    cases hget : (newByKey findings).get row.key with
    | none => exact absurd hopen (hresolved row.key row hget hlookup)
    | some g =>
      have hmem := Dict.mem_of_get hget
      obtain ⟨row', -, hfinding, hlookup'⟩ := hopened _ hmem
      rw [hrest₂ row.key (by rw [hget]; exact Option.some_ne_none g), hlookup'] at hlookup
      rw [← Option.some.inj hlookup, hfinding]
      have hkey : g.key = row.key := key_of_mem_newByKey (e := (row.key, g)) hmem
      rw [hkey]
      exact hmem
  · obtain ⟨row, hopen, hfinding, hlookup⟩ := hopened _ hf
    refine mem_openFindings.mpr ⟨row, ?_, hopen, hfinding⟩
    have hget : (newByKey findings).get f.key ≠ none := by
      rw [Dict.get_of_mem nodup_newByKey hf]
      exact Option.some_ne_none f
    exact (lookup_spec ((hrest₂ f.key hget).trans hlookup)).1

theorem nodup_openFindings (hrows : (rows.map ExposureFinding.key).Nodup) :
    (openFindings rows).Nodup := by
  have hkeys : ((openFindings rows).map Finding.key).Nodup := by
    unfold openFindings
    rw [List.map_map]
    exact hrows.sublist (List.filter_sublist.map _)
  exact List.Nodup.of_map _ hkeys

/-! ## What a run leaves -/

/-- The newest report that is kept, the first of them. -/
def IsNewest (events : List Event) (a : Attempt) : Prop :=
  FirstMin (fun a : Attempt ↦ OrderDual.toDual a.payload.collectedAt) (events.filterMap Event.kept) a

structure Host.Shows (settings : Settings) (h : Host) (p : Payload) : Prop where
  listeners : ∃ i, h.listeners = (computeFindings p.toFacts settings).listeners.map (hostListener i)
  services : ∃ i, h.services = p.services.map (hostService i)
  findings : ∀ f, f ∈ openFindings h.findings ↔
    (f.key, f) ∈ newByKey (computeFindings p.toFacts settings).findings

structure Host.Sound (settings : Settings) (events : List Event) (h : Host) : Prop where
  snapshots : h.snapshots.map (·.collectedAt) =
    (events.filterMap Event.kept).map (·.payload.collectedAt)
  nodup : (h.findings.map ExposureFinding.key).Nodup
  shows : ∀ a, IsNewest events a → a.stop = none → h.Shows settings a.payload

variable {settings : Settings} {events : List Event} {h : Host} {a : Attempt}

theorem Host.Sound.outOfOrder_iff (hs : h.Sound settings events) (t : Int) :
    h.outOfOrder t = true ↔ ∃ a ∈ events.filterMap Event.kept, t ≤ a.payload.collectedAt := by
  unfold Host.outOfOrder Host.latest
  rw [hs.snapshots]
  cases hmax : ((events.filterMap Event.kept).map (·.payload.collectedAt)).max? with
  | none =>
    rw [List.max?_eq_none_iff, List.map_eq_nil_iff] at hmax
    rw [hmax]
    simp
  | some m =>
    obtain ⟨hmem, hle⟩ := List.max?_eq_some_iff.mp hmax
    rw [Option.any_some, decide_eq_true_iff]
    constructor
    · intro ht
      obtain ⟨a, ha, rfl⟩ := List.mem_map.mp hmem
      exact ⟨a, ha, ht⟩
    · rintro ⟨a, ha, ht⟩
      exact ht.trans (hle _ (List.mem_map_of_mem ha))

theorem step_of_kept_none (settings : Settings) (h : Host) {e : Event} (hkept : e.kept = none) :
    ∃ rejected, step settings h e = { h with rejected := rejected } := by
  cases e with
  | refused now details => exact ⟨_, rfl⟩
  | report a =>
    have hstop : a.stop = some .start ∨ a.stop = some .cleared := by
      by_contra hnot
      rw [Event.kept, if_neg hnot] at hkept
      cases hkept
    obtain hstop | hstop := hstop
    · refine ⟨h.rejected, ?_⟩
      show (ingest settings a.now a.stop a.payload h).1 = h
      rw [hstop]
      rfl
    · refine ⟨none, ?_⟩
      show (ingest settings a.now a.stop a.payload h).1 = { h with rejected := none }
      rw [hstop]
      rfl

def Host.Same (h h' : Host) : Prop :=
  h.listeners = h'.listeners ∧ h.services = h'.services ∧ h.findings = h'.findings

/-- What keeps a report shows it if it is the newest and the transaction is committed, and changes
nothing that is shown otherwise. -/
theorem step_of_kept (settings : Settings) {e : Event} (hkept : e.kept = some a)
    (hrows : (h.findings.map ExposureFinding.key).Nodup) :
    (step settings h e).snapshots = h.snapshots ++ [a.payload.snapshot] ∧
      ((a.stop = none ∧ h.outOfOrder a.payload.collectedAt = false ∧
          (step settings h e).Shows settings a.payload ∧
          ((step settings h e).findings.map ExposureFinding.key).Nodup) ∨
        ((a.stop ≠ none ∨ h.outOfOrder a.payload.collectedAt = true) ∧
          (step settings h e).Same h)) := by
  have he : e = .report a ∧ ¬ (a.stop = some .start ∨ a.stop = some .cleared) := by
    cases e with
    | refused now details => cases hkept
    | report b =>
      rw [Event.kept] at hkept
      split at hkept
      · cases hkept
      · rename_i hstop
        obtain rfl := Option.some.inj hkept
        exact ⟨rfl, hstop⟩
  obtain ⟨rfl, hstop⟩ := he
  rw [not_or] at hstop
  show (ingest settings a.now a.stop a.payload h).1.snapshots = _ ∧
    ((_ ∧ _ ∧ (ingest settings a.now a.stop a.payload h).1.Shows settings a.payload ∧
      ((ingest settings a.now a.stop a.payload h).1.findings.map ExposureFinding.key).Nodup) ∨
    (_ ∧ (ingest settings a.now a.stop a.payload h).1.Same h))
  unfold ingest
  dsimp only
  rw [if_neg hstop.1, if_neg hstop.2]
  by_cases hcreated : a.stop = some .created
  · rw [if_pos hcreated]
    exact ⟨rfl, .inr ⟨.inl (by rw [hcreated]; exact Option.some_ne_none _), rfl, rfl, rfl⟩⟩
  · rw [if_neg hcreated]
    have hnone : a.stop = none := by
      cases hs : a.stop with
      | none => rfl
      | some stop =>
        rw [hs] at hstop hcreated
        cases stop with
        | start => exact absurd rfl hstop.1
        | cleared => exact absurd rfl hstop.2
        | created => exact absurd rfl hcreated
    cases hout : h.outOfOrder a.payload.collectedAt with
    | true => exact ⟨rfl, .inr ⟨.inr rfl, rfl, rfl, rfl⟩⟩
    | false =>
      obtain ⟨hnodup, hopen⟩ := transact_spec a.now
        (computeFindings a.payload.toFacts settings).findings hrows
      exact ⟨rfl, .inl ⟨hnone, rfl, ⟨⟨_, rfl⟩, ⟨_, rfl⟩, hopen⟩, hnodup⟩⟩

theorem Host.Same.shows {h' : Host} {p : Payload} (hsame : h'.Same h) (hshows : h.Shows settings p) :
    h'.Shows settings p := by
  obtain ⟨hlisteners, hservices, hfindings⟩ := hsame
  constructor
  case listeners => exact hlisteners ▸ hshows.listeners
  case services => exact hservices ▸ hshows.services
  case findings => exact hfindings ▸ hshows.findings

theorem Host.Sound.step (hs : h.Sound settings events) (e : Event) :
    (step settings h e).Sound settings (events ++ [e]) := by
  cases hkept : e.kept with
  | none =>
    obtain ⟨rejected, hstep⟩ := step_of_kept_none settings h hkept
    have hevents : (events ++ [e]).filterMap Event.kept = events.filterMap Event.kept := by
      rw [List.filterMap_append, List.filterMap_cons_none hkept, List.filterMap_nil, List.append_nil]
    rw [hstep]
    constructor
    case snapshots =>
      rw [hevents]
      exact hs.snapshots
    case nodup => exact hs.nodup
    case shows =>
      intro a ha hdone
      unfold IsNewest at ha
      rw [hevents] at ha
      have hshows := hs.shows a ha hdone
      exact ⟨hshows.listeners, hshows.services, hshows.findings⟩
  | some b =>
    have hevents : (events ++ [e]).filterMap Event.kept = events.filterMap Event.kept ++ [b] := by
      rw [List.filterMap_append, List.filterMap_cons_some hkept, List.filterMap_nil]
    obtain ⟨hsnapshots, hcases⟩ := step_of_kept settings hkept hs.nodup
    constructor
    case snapshots =>
      rw [hsnapshots, hevents, List.map_append, List.map_append, hs.snapshots]
      rfl
    case nodup =>
      obtain ⟨-, -, -, hnodup⟩ | ⟨-, -, -, hfindings⟩ := hcases
      · exact hnodup
      · rw [hfindings]
        exact hs.nodup
    case shows =>
      intro a ha hdone
      unfold IsNewest at ha
      rw [hevents] at ha
      obtain ⟨ha, hle⟩ | ⟨rfl, hall⟩ := ha.append_singleton
      · -- the report is not newer than the newest one
        have hout : h.outOfOrder b.payload.collectedAt = true :=
          (hs.outOfOrder_iff _).mpr ⟨a, ha.mem, hle⟩
        obtain ⟨-, hnew, -, -⟩ | ⟨-, hsame⟩ := hcases
        · rw [hout] at hnew
          cases hnew
        · exact hsame.shows (hs.shows a ha hdone)
      · obtain ⟨-, -, hshows, -⟩ | ⟨hwhy, -⟩ := hcases
        · exact hshows
        · obtain hstop | hout := hwhy
          · exact absurd hdone hstop
          · obtain ⟨b, hb, hle⟩ := (hs.outOfOrder_iff _).mp hout
            exact absurd hle (not_le_of_gt (hall b hb))

theorem sound_run (settings : Settings) (events : List Event) :
    (run settings events).Sound settings events := by
  induction events using List.reverseRecOn with
  | nil =>
    exact ⟨rfl, List.nodup_nil, fun a ha ↦ absurd ha.mem List.not_mem_nil⟩
  | append_singleton events e ih =>
    unfold run
    rw [List.foldl_append]
    exact ih.step e

namespace Host

theorem Agrees.symm {h' : Host} (hagrees : h.Agrees h') : h'.Agrees h :=
  ⟨hagrees.1.symm, hagrees.2.1.symm, hagrees.2.2.symm⟩

theorem Agrees.trans {h' h'' : Host} (hagrees : h.Agrees h') (hagrees' : h'.Agrees h'') :
    h.Agrees h'' :=
  ⟨hagrees.1.trans hagrees'.1, hagrees.2.1.trans hagrees'.2.1, hagrees.2.2.trans hagrees'.2.2⟩

theorem Same.agrees {h' : Host} (hsame : h.Same h') : h.Agrees h' := by
  obtain ⟨hlisteners, hservices, hfindings⟩ := hsame
  unfold Agrees
  rw [hlisteners, hservices, hfindings]
  exact ⟨rfl, rfl, List.Perm.refl _⟩

theorem Shows.agrees {h' : Host} {p : Payload} (hshows : h.Shows settings p)
    (hshows' : h'.Shows settings p) (hrows : (h.findings.map ExposureFinding.key).Nodup)
    (hrows' : (h'.findings.map ExposureFinding.key).Nodup) : h.Agrees h' := by
  obtain ⟨i, hlisteners⟩ := hshows.listeners
  obtain ⟨i', hlisteners'⟩ := hshows'.listeners
  obtain ⟨j, hservices⟩ := hshows.services
  obtain ⟨j', hservices'⟩ := hshows'.services
  refine ⟨?_, ?_, ?_⟩
  · rw [hlisteners, hlisteners', List.map_map, List.map_map]
    rfl
  · rw [hservices, hservices', List.map_map, List.map_map]
    rfl
  · refine (List.perm_ext_iff_of_nodup (nodup_openFindings hrows) (nodup_openFindings hrows')).mpr ?_
    intro f
    rw [hshows.findings f, hshows'.findings f]

end Host

theorem run_retry (settings : Settings) (events : List Event) (p : Payload) (t t' : Int) :
    (run settings (events ++ [.report ⟨p, t, some .created⟩, .report ⟨p, t', none⟩])).Same
      (run settings events) := by
  have hs := sound_run settings events
  have hfailed : (Event.report ⟨p, t, some .created⟩).kept = some ⟨p, t, some .created⟩ := rfl
  have hretried : (Event.report ⟨p, t', none⟩).kept = some ⟨p, t', none⟩ := rfl
  obtain ⟨-, hcases⟩ := step_of_kept settings hfailed hs.nodup
  have hs' := hs.step (.report ⟨p, t, some .created⟩)
  obtain ⟨-, hcases'⟩ := step_of_kept settings hretried hs'.nodup
  have hout : (step settings (run settings events) (.report ⟨p, t, some .created⟩)).outOfOrder
      p.collectedAt = true := by
    refine (hs'.outOfOrder_iff _).mpr ⟨⟨p, t, some .created⟩, ?_, le_rfl⟩
    rw [List.filterMap_append]
    exact List.mem_append_right _ List.mem_cons_self
  have hsame : (step settings (run settings events) (.report ⟨p, t, some .created⟩)).Same
      (run settings events) := by
    obtain ⟨hstop, -⟩ | ⟨-, hsame⟩ := hcases
    · cases hstop
    · exact hsame
  have hsame' : (step settings (step settings (run settings events) (.report ⟨p, t, some .created⟩))
      (.report ⟨p, t', none⟩)).Same
        (step settings (run settings events) (.report ⟨p, t, some .created⟩)) := by
    obtain ⟨-, hnew, -⟩ | ⟨-, hsame'⟩ := hcases'
    · rw [hout] at hnew
      cases hnew
    · exact hsame'
  unfold run at hsame hsame' ⊢
  rw [List.foldl_append]
  exact ⟨hsame'.1.trans hsame.1, hsame'.2.1.trans hsame.2.1, hsame'.2.2.trans hsame.2.2⟩

/-- **Reports converge to the newest one, if it was committed when it was kept.**  After any events
the host shows what it shows after the newest report alone, the first of them if there are several,
provided that its ingest did not fail after the report had been kept.  When it did, sending the
report again gives what a single ingest gives only if the host showed that before. -/
theorem ingest_converges (settings : Settings) (events : List Event) :
    (∀ a, IsNewest events a → a.stop = none → ∀ t,
      (run settings events).Agrees (run settings [.report ⟨a.payload, t, none⟩])) ∧
    ∀ p t t',
      ((run settings (events ++ [.report ⟨p, t, some .created⟩, .report ⟨p, t', none⟩])).Agrees
          (run settings (events ++ [.report ⟨p, t', none⟩])) ↔
        (run settings events).Agrees (run settings (events ++ [.report ⟨p, t', none⟩]))) := by
  constructor
  · intro a ha hdone t
    have hs := sound_run settings events
    have hs' := sound_run settings [.report ⟨a.payload, t, none⟩]
    have hnewest : IsNewest [.report ⟨a.payload, t, none⟩] ⟨a.payload, t, none⟩ :=
      ⟨[], [], rfl, fun y hy ↦ absurd hy List.not_mem_nil, fun y hy ↦ absurd hy List.not_mem_nil⟩
    exact (hs.shows a ha hdone).agrees (hs'.shows ⟨a.payload, t, none⟩ hnewest rfl) hs.nodup hs'.nodup
  · intro p t t'
    have hretry := (run_retry settings events p t t').agrees
    exact ⟨hretry.symm.trans, hretry.trans⟩

/-! ## Two reports -/

def bare : Payload where
  firewall := { engine := .none, active := false }
  listeners := [{ proto := .tcp, bind := "0.0.0.0", port := 6379 }]
  collectedAt := 10

def quiet : Payload where
  firewall := { engine := .none, active := false }
  collectedAt := 5

theorem ingest_converges_bare :
    (run {} [.report ⟨bare, 1, none⟩, .report ⟨quiet, 2, none⟩]).Agrees
      (run {} [.report ⟨bare, 0, none⟩]) := by
  have hnewest : IsNewest [.report ⟨bare, 1, none⟩, .report ⟨quiet, 2, none⟩] ⟨bare, 1, none⟩ := by
    refine ⟨[], [⟨quiet, 2, none⟩], rfl, fun y hy ↦ absurd hy List.not_mem_nil, ?_⟩
    intro y hy
    rw [List.mem_singleton.mp hy]
    decide
  exact (ingest_converges {} [.report ⟨bare, 1, none⟩, .report ⟨quiet, 2, none⟩]).1 _ hnewest rfl 0

/-- A report that comes again after a failed transaction is not shown. -/
theorem retry_bare :
    ¬ (run {} [.report ⟨bare, 1, some .created⟩, .report ⟨bare, 2, none⟩]).Agrees
      (run {} [.report ⟨bare, 2, none⟩]) := by
  intro hagrees
  have hlength := congrArg List.length hagrees.1
  have hlisteners : (run {} [.report ⟨bare, 1, some .created⟩, .report ⟨bare, 2, none⟩]).listeners =
      [] := by decide +kernel
  have hlisteners' : (run {} [.report ⟨bare, 2, none⟩]).listeners.length = 1 := by decide +kernel
  rw [List.length_map, List.length_map, hlisteners, hlisteners'] at hlength
  cases hlength

/-! ## Where findings come from -/

/-- A row goes back to reports `R`: one says it, one began it, and one without it resolved it. -/
structure ExposureFinding.Told (R : Int → List Finding → Prop) (row : ExposureFinding) : Prop where
  said : ∃ fs, R row.lastSeenAt fs ∧ row.toFinding ∈ fs
  since : ∃ fs, R row.firstSeenAt fs ∧ ∃ f ∈ fs, f.key = row.key
  gone : ∀ t, row.resolvedAt = some t → ∃ fs, R t fs ∧ ∀ f ∈ fs, f.key ≠ row.key

variable {R : Int → List Finding → Prop}

theorem told_incoming {existingByKey : Dict String ExposureFinding} {e : String × Finding}
    (hR : R now findings) (he : e.2 ∈ findings) (hkey : e.2.key = e.1)
    (hold : ∀ e ∈ existingByKey, e.2.key = e.1) (htx : ∀ row ∈ tx.findings, row.Told R) :
    ∀ row ∈ (Tx.incoming now existingByKey tx e).findings, row.Told R := by
  have hnew : ∀ l : List ExposureFinding, (∀ row ∈ l, row.Told R) →
      ∀ row ∈ l ++ [createFinding now e.2], row.Told R := by
    intro l hl row hrow
    rcases List.mem_append.mp hrow with hrow | hrow
    · exact hl row hrow
    · rw [List.mem_singleton.mp hrow]
      exact ⟨⟨findings, hR, he⟩, ⟨findings, hR, e.2, he, rfl⟩, fun t ht ↦ by cases ht⟩
  unfold Tx.incoming
  dsimp only
  split
  · exact hnew _ htx
  · rename_i existing hget
    have hsame : ∀ row : ExposureFinding, row.key = existing.key → e.2.key = row.key :=
      fun row hrow ↦ hkey.trans ((hold _ (Dict.mem_of_get hget)).symm.trans hrow.symm)
    have hsaid : ∀ row : ExposureFinding, row.key = existing.key →
        (row.say e.2).toFinding ∈ findings := fun row hrow ↦
      (ExposureFinding.say_toFinding (hsame row hrow).symm).symm ▸ he
    split
    · exact forall_modify htx fun row _ hrow ↦ ⟨⟨findings, hR, hsaid row hrow⟩,
        ⟨findings, hR, e.2, he, hsame row hrow⟩, fun t ht ↦ by cases ht⟩
    · split
      · exact hnew _ fun row hrow ↦ htx row (List.mem_of_mem_filter hrow)
      · exact forall_modify htx fun row hmem hrow ↦
          ⟨⟨findings, hR, hsaid row hrow⟩, (htx row hmem).since, (htx row hmem).gone⟩

theorem told_resolve {e : String × ExposureFinding} (hR : R now findings) (hkey : e.2.key = e.1)
    (htx : ∀ row ∈ tx.findings, row.Told R) :
    ∀ row ∈ (Tx.resolve now (newByKey findings) tx e).findings, row.Told R := by
  unfold Tx.resolve
  dsimp only
  split
  · rename_i hnone
    refine forall_modify htx fun row hmem hrow ↦ ⟨(htx row hmem).said, (htx row hmem).since, ?_⟩
    intro t ht
    obtain rfl := Option.some.inj ht
    refine ⟨findings, hR, fun f hf hfk ↦ Dict.get_eq_none_iff.mp hnone.2 ?_⟩
    rw [← hkey, ← hrow]
    exact hfk ▸ Dict.fst_mem_ofList (List.mem_map_of_mem hf)
  · exact htx

theorem told_transact (hR : R now findings) (hrows : ∀ row ∈ existingAll, row.Told R) :
    ∀ row ∈ (transact now existingAll findings).findings, row.Told R := by
  have hold : ∀ e ∈ Dict.ofList (existingAll.map fun f ↦ (f.key, f)), e.2.key = e.1 := by
    intro e he
    obtain ⟨row, -, rfl⟩ := List.mem_map.mp (Dict.mem_of_mem_ofList he)
    rfl
  refine List.foldlRecOn _ _ (motive := fun tx : Tx ↦ ∀ row ∈ tx.findings, row.Told R) ?_
    fun tx htx e he ↦ told_resolve hR (hold e he) htx
  refine List.foldlRecOn _ _ (motive := fun tx : Tx ↦ ∀ row ∈ tx.findings, row.Told R) hrows
    fun tx htx e he ↦ ?_
  obtain ⟨f, hf, rfl⟩ := List.mem_map.mp (Dict.mem_of_mem_ofList he)
  exact told_incoming hR hf rfl hold htx

/-- A report that went through says these findings at this time. -/
def Reported (settings : Settings) (events : List Event) (now : Int) (findings : List Finding) :
    Prop :=
  ∃ p, .report ⟨p, now, none⟩ ∈ events ∧ findings = (computeFindings p.toFacts settings).findings

def Host.Told (settings : Settings) (events : List Event) (h : Host) : Prop :=
  ∀ row ∈ h.findings, row.Told (Reported settings events) ∧ row.severity = row.code.severity ∧
    row.Placed

/-- **No finding is made up, in any run.** -/
theorem run_told (settings : Settings) (events : List Event) :
    (run settings events).Told settings events := by
  have htold : ∀ row ∈ (run settings events).findings, row.Told (Reported settings events) := by
    refine List.foldlRecOn _ _
      (motive := fun h : Host ↦ ∀ row ∈ h.findings, row.Told (Reported settings events))
      (List.forall_mem_nil _) fun h hh e he ↦ ?_
    cases e with
    | refused now details => exact hh
    | report a =>
      obtain ⟨p, now, stop⟩ := a
      cases stop with
      | none =>
        simp only [step, ingest, reduceCtorEq, if_false]
        split
        · exact hh
        · exact told_transact ⟨p, he, rfl⟩ hh
      | some stop => cases stop <;> exact hh
  intro row hrow
  obtain ⟨fs, ⟨p, -, rfl⟩, hmem⟩ := (htold row hrow).said
  exact ⟨htold row hrow, placed_of_mem_findings hmem⟩

end Shellius.Posture
