import Shellius.Audit.DigestSchedule
import Shellius.Audit.Stream

/-!
# Retention of the audit log

`retentionService.js`: `sinkFloor`, `archiveDay` and `applyRetention`, which goes
through the log a day at a time, archives the day and then deletes it.

What it deletes is safe to delete, whatever the storage does (`applyRetention_safe`).
But a day that has any rows is never archived: the two halves of an upsert each ask
the hash for its digest, and a hash gives it once.
-/

namespace Shellius.Audit.Retention

open Lib DigestSchedule

/-! ## The floor -/

/-- `AuditSettings` -/
structure Settings where
  retentionDays : Option Nat
  archiveEnabled : Bool := false
  archiveEncrypt : Bool := true
  archiveBucket : Option String := none
  archivePrefix : String := "audit-archive"
  deleteWithoutArchive : Bool := false

/-- `AuditSink`, as far as retention is concerned. -/
structure SinkRow where
  orgId : Id
  isActive : Bool
  /-- The type is one of `STREAMING_TYPES`. -/
  streaming : Bool
  cursorCreatedAt : Option Int

def enabledSinks (orgId : Id) (sinks : List SinkRow) : List SinkRow :=
  sinks.filter fun sink ↦ sink.orgId = orgId ∧ sink.isActive ∧ sink.streaming

def sinkFloor (orgId : Id) (sinks : List SinkRow) : Option Int :=
  match enabledSinks orgId sinks with
  | [] => none
  | first :: rest =>
    -- a sink that has never run holds the floor at the beginning of time
    if (first :: rest).any fun sink ↦ sink.cursorCreatedAt = none then some 0
    else
      some ((first :: rest).foldl
        (fun least sink ↦ min (sink.cursorCreatedAt.getD 0) least)
        (first.cursorCreatedAt.getD 0))

/-- What is older than this may go. -/
def retentionLimit (cutoff : Int) : Option Int → Int
  | some floor => if floor < cutoff then floor else cutoff
  | none => cutoff

/-! ## Archiving a day -/

/-- Why a day was not archived. -/
inductive Failure
  | upload
  | /-- `ERR_CRYPTO_HASH_FINALIZED` -/
    hashFinalized

abbrev Chunk := List UInt8

/-- A hash object of `crypto`: what it was given, and whether it has given its digest. -/
structure Hash where
  chunks : List Chunk := []
  finalized : Bool := false

def Hash.update (hash : Hash) (chunk : Chunk) : Hash :=
  { hash with chunks := hash.chunks ++ [chunk] }

/-- `hash.digest('hex')`, which works once. -/
def Hash.digest (sha256 : List Chunk → String) (hash : Hash) :
    Except Failure (String × Hash) :=
  if hash.finalized then .error .hashFinalized
  else .ok (sha256 hash.chunks, { hash with finalized := true })

/-- `archiveKeyFor` -/
structure ObjectKey where
  archivePrefix : String
  orgId : Id
  day : Int
  encrypted : Bool
deriving DecidableEq

/-- An object that has been written to the end, and the rows in it. -/
structure ArchiveObject where
  bucket : Option String
  key : ObjectKey
  rows : List AuditLog

structure AuditArchive where
  objectKey : ObjectKey
  bucket : Option String
  encrypted : Bool
  rangeStart : Int
  rangeEnd : Int
  rowCount : Nat
  bytes : Nat
  sha256 : String

/-- What is outside: the storage, the encoding of an object and the hash function. -/
structure Platform where
  /-- Whether the storage takes the object of a day. -/
  upload : Int → Bool
  encode : Bool → List AuditLog → List Chunk
  sha256 : List Chunk → String

structure Store where
  log : Log
  archives : List AuditArchive := []

def inDay (orgId : Id) (day : Int) (row : AuditLog) : Bool :=
  row.orgId = orgId ∧ day ≤ row.createdAt ∧ row.createdAt < day + dayMs

/-- The rows of a day from the batches, up to the first batch that goes beyond it. -/
def dayRows (day : Int) : List (List AuditLog) → List AuditLog
  | [] => []
  | batch :: batches =>
    (batch.filter fun row ↦ day ≤ row.createdAt ∧ row.createdAt < day + dayMs) ++
      if batch.getLast?.any fun row ↦ day + dayMs ≤ row.createdAt then []
      else dayRows day batches

/-- The rows `archiveDay` collects. -/
def rowsOf (log : Log) (orgId : Id) (day : Int) : List AuditLog :=
  dayRows day (stream log orgId {} (day + dayMs) 1000 ⊥)

/-- `upsert`, by the key of the object -/
def upsertArchive (archives : List AuditArchive) (create : AuditArchive)
    (update : AuditArchive → AuditArchive) : List AuditArchive :=
  if archives.any fun a ↦ a.objectKey = create.objectKey then
    archives.map fun a ↦ if a.objectKey = create.objectKey then update a else a
  else create :: archives

/-- The database once the archive is on record, if it comes to that: the arguments of the
upsert ask for the digest twice. -/
def recordArchive (env : Platform) (s : Store) (object : ArchiveObject) (hash : Hash)
    (first last : AuditLog) : Except Failure Store := do
  let bytes := (hash.chunks.map List.length).sum
  let (sha256, hash) ← hash.digest env.sha256
  let create : AuditArchive := {
    objectKey := object.key, bucket := object.bucket, encrypted := object.key.encrypted
    rangeStart := first.createdAt, rangeEnd := last.createdAt
    rowCount := object.rows.length, bytes, sha256 }
  let (sha256, _) ← hash.digest env.sha256
  return { s with
    archives := upsertArchive s.archives create fun archive ↦ { archive with
      rowCount := object.rows.length, bytes, sha256
      rangeStart := first.createdAt, rangeEnd := last.createdAt } }

/-- What came of archiving a day. -/
structure Archived where
  object : Option ArchiveObject
  /-- Whether there is an archive, and the database. -/
  result : Except Failure (Bool × Store)

def archiveDay (env : Platform) (s : Store) (orgId : Id) (settings : Settings) (day : Int) :
    Archived :=
  match rowsOf s.log orgId day with
  | [] => ⟨none, .ok (false, s)⟩
  | first :: rest =>
    let object : ArchiveObject := {
      bucket := settings.archiveBucket
      key := ⟨settings.archivePrefix, orgId, day, settings.archiveEncrypt⟩
      rows := first :: rest }
    let hash := (env.encode settings.archiveEncrypt object.rows).foldl Hash.update {}
    if env.upload day then
      ⟨some object, (recordArchive env s object hash first (rest.getLastD first)).map
        fun s ↦ (true, s)⟩
    else ⟨none, .error .upload⟩

/-! ## Applying retention -/

inductive Effect
  | wrote (object : ArchiveObject)
  | deleted (rows : List AuditLog)

/-- Why a run stopped. -/
inductive Skip
  | noRetention
  | archiveFailed (e : Failure)
  | /-- Archiving is off, and deleting without an archive was not enabled. -/
    notEnabled

/-- What `applyRetention` answers, the database, and what it has done. -/
structure Outcome where
  store : Store
  archived : Nat := 0
  deleted : Nat := 0
  skipped : Option Skip := none
  effects : List Effect := []

def Outcome.deleteDay (r : Outcome) (orgId : Id) (day : Int) : Outcome :=
  let rows := r.store.log.rows.filter (inDay orgId day)
  { r with
    store := { r.store with log := r.store.log.filter fun row ↦ !inDay orgId day row }
    deleted := r.deleted + rows.length
    effects := .deleted rows :: r.effects }

def Outcome.archive (r : Outcome) (a : Archived) (archived : Bool) (s : Store) : Outcome :=
  { r with
    store := s
    archived := r.archived + if archived then 1 else 0
    effects := (a.object.map Effect.wrote).toList ++ r.effects }

/-- The loop over the days, at most so many. -/
def applyDays (env : Platform) (orgId : Id) (settings : Settings) (limit : Int) :
    Nat → Int → Outcome → Outcome
  | 0, _, r => r
  | fuel + 1, day, r =>
    if limit < day + dayMs then r
    else if settings.archiveEnabled then
      let a := archiveDay env r.store orgId settings day
      match a.result with
      | .error e =>
        { r with
          skipped := some (.archiveFailed e)
          effects := (a.object.map Effect.wrote).toList ++ r.effects }
      | .ok (archived, s) =>
        applyDays env orgId settings limit fuel (day + dayMs)
          ((r.archive a archived s).deleteDay orgId day)
    else if settings.deleteWithoutArchive then
      applyDays env orgId settings limit fuel (day + dayMs) (r.deleteDay orgId day)
    else { r with skipped := some .notEnabled }

def oldestRow (log : Log) (orgId : Id) (limit : Int) : Option AuditLog :=
  (sortOn AuditLog.createdAt
    (log.rows.filter fun row ↦ row.orgId = orgId ∧ row.createdAt < limit)).head?

def limitOf (orgId : Id) (sinks : List SinkRow) (now : Int) (days : Nat) : Int :=
  retentionLimit (now - days * dayMs) (sinkFloor orgId sinks)

def applyRetention (env : Platform) (s : Store) (orgId : Id) (sinks : List SinkRow)
    (settings : Settings) (now : Int) : Outcome :=
  match settings.retentionDays with
  | none | some 0 => { store := s, skipped := some .noRetention }
  | some days =>
    let limit := limitOf orgId sinks now days
    match oldestRow s.log orgId limit with
    | none => { store := s }
    | some oldest =>
      -- whole days only
      let day := dayOf oldest.createdAt * dayMs
      applyDays env orgId settings limit ((limit - day) / dayMs).toNat day { store := s }

section

variable {env : Platform} {s s' : Store} {log : Log} {orgId : Id} {sinks : List SinkRow}
  {settings : Settings} {now limit cutoff day : Int} {days fuel : Nat} {row : AuditLog}
  {r : Outcome} {sink : SinkRow} {archived : Bool} {effects : List Effect}

/-! ## The limit -/

theorem foldl_min_le {g : SinkRow → Int} {l : List SinkRow} {a : Int} :
    l.foldl (fun least sink ↦ min (g sink) least) a ≤ a ∧
      ∀ sink ∈ l, l.foldl (fun least sink ↦ min (g sink) least) a ≤ g sink := by
  induction l generalizing a with
  | nil => exact ⟨Int.le_refl a, fun _ hmem ↦ by cases hmem⟩
  | cons x l ih =>
    obtain ⟨hle, hall⟩ := ih (a := min (g x) a)
    refine ⟨Int.le_trans hle (Int.min_le_right _ _), fun sink hmem ↦ ?_⟩
    rcases List.mem_cons.mp hmem with rfl | hmem
    · exact Int.le_trans hle (Int.min_le_left _ _)
    · exact hall sink hmem

theorem exists_sinkFloor (h : sink ∈ enabledSinks orgId sinks) :
    ∃ floor, sinkFloor orgId sinks = some floor ∧
      (floor = 0 ∨ ∃ c, sink.cursorCreatedAt = some c ∧ floor ≤ c) := by
  unfold sinkFloor
  cases hsinks : enabledSinks orgId sinks with
  | nil =>
    rw [hsinks] at h
    cases h
  | cons first rest =>
    rw [hsinks] at h
    dsimp only
    split
    · exact ⟨0, rfl, .inl rfl⟩
    · rename_i hall
      refine ⟨_, rfl, .inr ?_⟩
      cases hc : sink.cursorCreatedAt with
      | none => exact absurd (List.any_eq_true.mpr ⟨sink, h, decide_eq_true hc⟩) hall
      | some c =>
        refine ⟨c, rfl, ?_⟩
        have hle := (foldl_min_le (g := fun sink ↦ sink.cursorCreatedAt.getD 0)
          (a := first.cursorCreatedAt.getD 0)).2 sink h
        simpa [hc] using hle

theorem retentionLimit_le {floor : Option Int} :
    retentionLimit cutoff floor ≤ cutoff ∧
      ∀ f, floor = some f → retentionLimit cutoff floor ≤ f := by
  cases floor with
  | none => exact ⟨Int.le_refl _, fun f hf ↦ by cases hf⟩
  | some floor =>
    simp only [retentionLimit]
    split
    · rename_i hlt
      refine ⟨Int.le_of_lt hlt, fun f hf ↦ ?_⟩
      exact Int.le_of_eq (Option.some.inj hf)
    · rename_i hge
      refine ⟨Int.le_refl _, fun f hf ↦ ?_⟩
      rw [← Option.some.inj hf]
      exact Int.not_lt.mp hge

theorem lt_cursor (hsink : sink ∈ enabledSinks orgId sinks)
    (hlt : row.createdAt < limitOf orgId sinks now days) :
    ∃ c, sink.cursorCreatedAt = some c ∧ row.createdAt < c := by
  obtain ⟨floor, hfloor, hzero | ⟨c, hc, hle⟩⟩ := exists_sinkFloor hsink
  · have hlimit : limitOf orgId sinks now days ≤ floor := retentionLimit_le.2 floor hfloor
    -- there are no rows from before the beginning of time
    have hneg : row.createdAt < 0 := hzero ▸ Int.lt_of_lt_of_le hlt hlimit
    exact absurd row.createdAt_nonneg (Int.not_le.mpr hneg)
  · have hlimit : limitOf orgId sinks now days ≤ floor := retentionLimit_le.2 floor hfloor
    exact ⟨c, hc, Int.lt_of_lt_of_le hlt (Int.le_trans hlimit hle)⟩

/-! ## The rows of a day -/

theorem inDay_iff : inDay orgId day row = true ↔
    row.orgId = orgId ∧ day ≤ row.createdAt ∧ row.createdAt < day + dayMs := by
  simp [inDay]

theorem dayRows_eq {batches : List (List AuditLog)}
    (h : batches.flatten.Pairwise fun a b ↦ a.createdAt ≤ b.createdAt) :
    dayRows day batches =
      batches.flatten.filter fun row ↦ day ≤ row.createdAt ∧ row.createdAt < day + dayMs := by
  induction batches with
  | nil => rfl
  | cons batch batches ih =>
    rw [List.flatten_cons] at h
    obtain ⟨-, hrest, hbetween⟩ := List.pairwise_append.mp h
    rw [dayRows, List.flatten_cons, List.filter_append]
    congr 1
    split
    · rename_i hbeyond
      obtain ⟨last, hlast, hle⟩ := (Option.any_eq_true _ _).mp hbeyond
      have hle : day + dayMs ≤ last.createdAt := of_decide_eq_true hle
      refine (List.filter_eq_nil_iff.mpr fun r hr hin ↦ ?_).symm
      have hend := (of_decide_eq_true hin).2
      have hafter := hbetween last (List.mem_of_getLast? hlast) r hr
      exact Int.lt_irrefl _ (Int.lt_of_lt_of_le hend (Int.le_trans hle hafter))
    · exact ih hrest

theorem mem_rowsOf : row ∈ rowsOf log orgId day ↔ row ∈ log ∧ inDay orgId day row = true := by
  have hsorted : ((stream log orgId {} (day + dayMs) 1000 ⊥).flatten).Pairwise
      fun a b ↦ a.createdAt ≤ b.createdAt := by
    rw [flatten_stream (by decide)]
    refine pairwise_above.imp fun {a b} hle ↦ ?_
    exact createdAt_le (p := a.position) hle
  rw [rowsOf, dayRows_eq hsorted, List.mem_filter, flatten_stream (by decide), mem_above, mem_upTo,
    inDay_iff]
  simp only [passes, true_or, and_true, decide_eq_true_eq, WithBot.bot_lt_coe]
  constructor
  · rintro ⟨⟨hlog, horg, -⟩, hin⟩
    exact ⟨hlog, horg, hin⟩
  · rintro ⟨hlog, horg, hin⟩
    exact ⟨⟨hlog, horg, Int.le_of_lt hin.2⟩, hin⟩

/-! ## What comes of archiving a day -/

theorem rowsOf_eq_nil : rowsOf log orgId day = [] ↔ ∀ row ∈ log, inDay orgId day row = false := by
  rw [List.eq_nil_iff_forall_not_mem]
  constructor
  · intro h row hlog
    exact Bool.eq_false_iff.mpr fun hin ↦ h row (mem_rowsOf.mpr ⟨hlog, hin⟩)
  · intro h row hmem
    obtain ⟨hlog, hin⟩ := mem_rowsOf.mp hmem
    exact Bool.eq_false_iff.mp (h row hlog) hin

theorem archiveDay_ok (h : (archiveDay env s orgId settings day).result = .ok (archived, s')) :
    s'.log = s.log ∧ ∀ row ∈ s.log, inDay orgId day row = true →
      ∃ object, (archiveDay env s orgId settings day).object = some object ∧ row ∈ object.rows := by
  unfold archiveDay at h ⊢
  split at h
  · rename_i hnil
    obtain ⟨-, rfl⟩ := Prod.mk.inj (Except.ok.inj h)
    refine ⟨rfl, fun row hlog hin ↦ ?_⟩
    rw [rowsOf_eq_nil.mp hnil row hlog] at hin
    cases hin
  · rename_i first rest hrows
    dsimp only at h ⊢
    split at h
    · rename_i hupload
      refine ⟨?_, fun row hlog hin ↦ ?_⟩
      · unfold recordArchive at h
        simp only [Except.map, bind, Except.bind] at h
        split at h
        · cases h
        · rename_i hrecord
          obtain ⟨-, rfl⟩ := Prod.mk.inj (Except.ok.inj h)
          split at hrecord
          · cases hrecord
          · split at hrecord
            · cases hrecord
            · cases hrecord
              rfl
      · rw [if_pos hupload]
        exact ⟨_, rfl, hrows ▸ mem_rowsOf.mpr ⟨hlog, hin⟩⟩
    · cases h

theorem recordArchive_eq {object : ArchiveObject} {hash : Hash} {first last : AuditLog} :
    recordArchive env s object hash first last = .error .hashFinalized := by
  unfold recordArchive Hash.digest
  cases hash.finalized <;> rfl

theorem archiveDay_error (h : rowsOf s.log orgId day ≠ []) (hupload : env.upload day = true) :
    (archiveDay env s orgId settings day).result = .error .hashFinalized := by
  unfold archiveDay
  split
  · rename_i hnil
    exact absurd hnil h
  · rw [if_pos hupload, recordArchive_eq]
    rfl

theorem archiveDay_empty (h : rowsOf s.log orgId day = []) :
    archiveDay env s orgId settings day = ⟨none, .ok (false, s)⟩ := by
  unfold archiveDay
  rw [h]

/-! ## What is deleted -/

/-- What has been deleted had been written to an object before. -/
def ArchivedFirst : List Effect → Prop
  | [] => True
  | .wrote _ :: before => ArchivedFirst before
  | .deleted rows :: before =>
    (∀ row ∈ rows, ∃ object, .wrote object ∈ before ∧ row ∈ object.rows) ∧ ArchivedFirst before

theorem archivedFirst_append {object : Option ArchiveObject} (h : ArchivedFirst effects) :
    ArchivedFirst ((object.map Effect.wrote).toList ++ effects) := by
  cases object with
  | none => exact h
  | some object => exact h

/-- A run has deleted what was older than the limit, and has a record of it. -/
structure Deletes (s : Store) (orgId : Id) (settings : Settings) (limit : Int) (r : Outcome) :
    Prop where
  deleted : ∀ row ∈ s.log, row ∉ r.store.log → row.orgId = orgId ∧ row.createdAt < limit ∧
    ∃ rows, .deleted rows ∈ r.effects ∧ row ∈ rows
  archived : settings.archiveEnabled = true → ArchivedFirst r.effects

theorem Deletes.deleteDay (h : Deletes s orgId settings limit r) (hle : day + dayMs ≤ limit)
    (ha : settings.archiveEnabled = true → ∀ row ∈ r.store.log, inDay orgId day row = true →
      ∃ object, .wrote object ∈ r.effects ∧ row ∈ object.rows) :
    Deletes s orgId settings limit (r.deleteDay orgId day) := by
  constructor
  · intro row hlog hgone
    by_cases hstill : row ∈ r.store.log
    · have hin : inDay orgId day row = true := by
        by_contra hout
        exact hgone (Keyed.mem_filter.mpr ⟨hstill, by simpa using hout⟩)
      obtain ⟨horg, -, hlt⟩ := inDay_iff.mp hin
      refine ⟨horg, Int.lt_of_lt_of_le hlt hle, _, List.mem_cons_self, ?_⟩
      exact List.mem_filter.mpr ⟨hstill, hin⟩
    · obtain ⟨horg, hlt, rows, hrows, hrow⟩ := h.deleted row hlog hstill
      exact ⟨horg, hlt, rows, List.mem_cons_of_mem _ hrows, hrow⟩
  · intro henabled
    refine ⟨fun row hrow ↦ ?_, h.archived henabled⟩
    obtain ⟨hstill, hin⟩ := List.mem_filter.mp hrow
    exact ha henabled row hstill hin

theorem Deletes.archive (h : Deletes s orgId settings limit r)
    (hok : (archiveDay env r.store orgId settings day).result = .ok (archived, s')) :
    Deletes s orgId settings limit
        (r.archive (archiveDay env r.store orgId settings day) archived s') ∧
      ∀ row ∈ s'.log, inDay orgId day row = true → ∃ object,
        .wrote object ∈ (r.archive (archiveDay env r.store orgId settings day) archived s').effects ∧
          row ∈ object.rows := by
  obtain ⟨hlog, hobject⟩ := archiveDay_ok hok
  refine ⟨⟨fun row hrow hgone ↦ ?_, fun henabled ↦ archivedFirst_append (h.archived henabled)⟩, ?_⟩
  · obtain ⟨horg, hlt, rows, hrows, hmem⟩ := h.deleted row hrow fun hstill ↦
      hgone (show row ∈ s'.log from hlog ▸ hstill)
    exact ⟨horg, hlt, rows, List.mem_append_right _ hrows, hmem⟩
  · intro row hrow hin
    obtain ⟨object, hsome, hmem⟩ := hobject row (hlog ▸ hrow) hin
    refine ⟨object, List.mem_append_left _ ?_, hmem⟩
    rw [hsome]
    exact List.mem_cons_self

theorem Deletes.applyDays (h : Deletes s orgId settings limit r) :
    Deletes s orgId settings limit (applyDays env orgId settings limit fuel day r) := by
  induction fuel generalizing day r with
  | zero => exact h
  | succ fuel ih =>
    rw [Retention.applyDays]
    split
    · exact h
    · rename_i hle
      have hle : day + dayMs ≤ limit := Int.not_lt.mp hle
      split
      · dsimp only
        split
        · refine ⟨fun row hlog hgone ↦ ?_, fun hon ↦ archivedFirst_append (h.archived hon)⟩
          obtain ⟨horg, hlt, rows, hrows, hmem⟩ := h.deleted row hlog hgone
          exact ⟨horg, hlt, rows, List.mem_append_right _ hrows, hmem⟩
        · rename_i hok
          obtain ⟨harchive, hobject⟩ := h.archive hok
          exact ih (harchive.deleteDay hle fun _ ↦ hobject)
      · rename_i hoff
        split
        · exact ih (h.deleteDay hle fun hon ↦ absurd hon hoff)
        · exact ⟨h.deleted, h.archived⟩

/-- What may be deleted, of a run and what it leaves. -/
structure Safe (s : Store) (orgId : Id) (sinks : List SinkRow) (settings : Settings) (now : Int)
    (r : Outcome) : Prop where
  /-- What is gone is older than the retention. -/
  retained : ∀ row ∈ s.log, row ∉ r.store.log → row.orgId = orgId ∧
    ∃ days : Nat, settings.retentionDays = some days ∧ row.createdAt < now - days * dayMs
  shipped : ∀ row ∈ s.log, row ∉ r.store.log → ∀ sink ∈ enabledSinks orgId sinks,
    ∃ c, sink.cursorCreatedAt = some c ∧ row.createdAt < c
  recorded : ∀ row ∈ s.log, row ∉ r.store.log → ∃ rows, .deleted rows ∈ r.effects ∧ row ∈ rows
  archived : settings.archiveEnabled = true → ArchivedFirst r.effects

theorem safe_of_idle {skipped : Option Skip} :
    Safe s orgId sinks settings now { store := s, skipped } where
  retained _ hlog hgone := absurd hlog hgone
  shipped _ hlog hgone := absurd hlog hgone
  recorded _ hlog hgone := absurd hlog hgone
  archived _ := trivial

theorem Deletes.safe (h : Deletes s orgId settings (limitOf orgId sinks now days) r)
    (hdays : settings.retentionDays = some days) : Safe s orgId sinks settings now r where
  retained row hlog hgone := by
    obtain ⟨horg, hlt, -⟩ := h.deleted row hlog hgone
    exact ⟨horg, days, hdays, Int.lt_of_lt_of_le hlt retentionLimit_le.1⟩
  shipped row hlog hgone _ hsink := lt_cursor hsink (h.deleted row hlog hgone).2.1
  recorded row hlog hgone := (h.deleted row hlog hgone).2.2
  archived := h.archived

/-- **What retention deletes is safe to delete**, whatever the storage does. -/
theorem applyRetention_safe :
    Safe s orgId sinks settings now (applyRetention env s orgId sinks settings now) := by
  unfold applyRetention
  split
  · exact safe_of_idle
  · exact safe_of_idle
  · rename_i days _ hdays
    dsimp only
    split
    · exact safe_of_idle
    · have hnone : Deletes s orgId settings (limitOf orgId sinks now days) { store := s } :=
        ⟨fun _ hlog hgone ↦ absurd hlog hgone, fun _ ↦ trivial⟩
      exact hnone.applyDays.safe hdays

/-! ## What is kept -/

def Eligible (orgId : Id) (limit : Int) (row : AuditLog) : Prop :=
  row.orgId = orgId ∧ dayOf row.createdAt * dayMs + dayMs ≤ limit

theorem exists_oldestRow (hlog : row ∈ s.log) (h : Eligible orgId limit row) :
    ∃ oldest ∈ s.log, oldestRow s.log orgId limit = some oldest ∧ oldest.orgId = orgId ∧
      oldest.createdAt ≤ row.createdAt := by
  have hlt : row.createdAt < limit :=
    Int.lt_of_lt_of_le (dayOf_spec (t := row.createdAt)).2 h.2
  have hmem : row ∈ s.log.rows.filter fun row ↦ row.orgId = orgId ∧ row.createdAt < limit :=
    List.mem_filter.mpr ⟨hlog, decide_eq_true ⟨h.1, hlt⟩⟩
  obtain ⟨oldest, hmin⟩ : ∃ oldest, FirstMin AuditLog.createdAt _ oldest :=
    exists_firstMin (List.ne_nil_of_mem hmem)
  obtain ⟨hold, horg⟩ := List.mem_filter.mp hmin.mem
  exact ⟨oldest, hold, head?_sortOn.mpr hmin, (of_decide_eq_true horg).1, hmin.le hmem⟩

theorem inDay_dayOf (h : row.orgId = orgId) :
    inDay orgId (dayOf row.createdAt * dayMs) row = true :=
  inDay_iff.mpr ⟨h, dayOf_spec (t := row.createdAt)⟩

theorem dayOf_mono {t u : Int} (h : t ≤ u) : dayOf t * dayMs ≤ dayOf u * dayMs :=
  Int.mul_le_mul_of_nonneg_right (Int.ediv_le_ediv (by decide) h) (by decide)

/-- The storage takes the object of every day that has rows. -/
def StorageWorks (env : Platform) (log : Log) (orgId : Id) : Prop :=
  ∀ day, (∃ row ∈ log, inDay orgId day row = true) → env.upload day = true

theorem applyRetention_eq {oldest : AuditLog} (hdays : settings.retentionDays = some days)
    (hpos : days ≠ 0) (hfirst : oldestRow s.log orgId (limitOf orgId sinks now days) = some oldest) :
    applyRetention env s orgId sinks settings now =
      applyDays env orgId settings (limitOf orgId sinks now days)
        ((limitOf orgId sinks now days - dayOf oldest.createdAt * dayMs) / dayMs).toNat
        (dayOf oldest.createdAt * dayMs) { store := s } := by
  unfold applyRetention
  cases days with
  | zero => exact absurd rfl hpos
  | succ days => simp only [hdays, hfirst]

theorem applyRetention_keeps (hdays : settings.retentionDays = some days) (hpos : days ≠ 0)
    (hon : settings.archiveEnabled = true) (hstorage : StorageWorks env s.log orgId)
    (hlog : row ∈ s.log) (h : Eligible orgId (limitOf orgId sinks now days) row) :
    (applyRetention env s orgId sinks settings now).store = s ∧
      (applyRetention env s orgId sinks settings now).skipped =
        some (.archiveFailed .hashFinalized) := by
  obtain ⟨oldest, hold, hfirst, horg, hle⟩ := exists_oldestRow hlog h
  have hin := inDay_dayOf horg
  have hday : dayOf oldest.createdAt * dayMs + dayMs ≤ limitOf orgId sinks now days :=
    Int.le_trans (Int.add_le_add_right (dayOf_mono hle) _) h.2
  have hfail : (archiveDay env s orgId settings (dayOf oldest.createdAt * dayMs)).result =
      .error .hashFinalized :=
    archiveDay_error (List.ne_nil_of_mem (mem_rowsOf.mpr ⟨hold, hin⟩))
      (hstorage _ ⟨oldest, hold, hin⟩)
  -- there is a first day, and it fails
  obtain ⟨fuel, hfuel⟩ : ∃ fuel,
      ((limitOf orgId sinks now days - dayOf oldest.createdAt * dayMs) / dayMs).toNat =
        fuel + 1 := by
    refine Nat.exists_eq_succ_of_ne_zero fun hzero ↦ ?_
    have hone : 1 ≤ (limitOf orgId sinks now days - dayOf oldest.createdAt * dayMs) / dayMs :=
      Int.le_ediv_of_mul_le (by decide) (by omega)
    omega
  rw [applyRetention_eq hdays hpos hfirst, hfuel, applyDays, if_neg (Int.not_lt.mpr hday),
    if_pos hon]
  dsimp only
  rw [hfail]
  exact ⟨rfl, rfl⟩

/-! ## When retention does what it should -/

/-- What is asked of retention where archiving is on and the storage works: a day is archived,
and a run deletes all that it may. -/
def Progress (env : Platform) (s : Store) (orgId : Id) (sinks : List SinkRow)
    (settings : Settings) (now day : Int) : Prop :=
  settings.archiveEnabled = true → StorageWorks env s.log orgId →
    (∃ archived s', (archiveDay env s orgId settings day).result = .ok (archived, s')) ∧
      ∀ days, settings.retentionDays = some days → days ≠ 0 → ∀ row ∈ s.log,
        Eligible orgId (limitOf orgId sinks now days) row →
          row ∉ (applyRetention env s orgId sinks settings now).store.log

/-- **Retention only deletes what is safe to delete, and it gets on, if and only if archiving
is off, the storage refuses a day, or there is nothing to archive.** -/
theorem applyRetention_correct :
    Safe s orgId sinks settings now (applyRetention env s orgId sinks settings now) ∧
        Progress env s orgId sinks settings now day ↔
      settings.archiveEnabled = false ∨ ¬ StorageWorks env s.log orgId ∨
        (∀ row ∈ s.log, inDay orgId day row = false) ∧
          ∀ days, settings.retentionDays = some days → days ≠ 0 →
            ∀ row ∈ s.log, ¬ Eligible orgId (limitOf orgId sinks now days) row := by
  constructor
  · rintro ⟨-, hprogress⟩
    cases hon : settings.archiveEnabled with
    | false => exact .inl rfl
    | true =>
      refine .inr ?_
      by_cases hstorage : StorageWorks env s.log orgId
      · obtain ⟨⟨archived, s', hok⟩, hdeletes⟩ := hprogress hon hstorage
        refine .inr ⟨?_, fun days hdays hpos row hlog h ↦ ?_⟩
        · refine rowsOf_eq_nil.mp ?_
          by_contra hne
          obtain ⟨row, hrow⟩ := List.exists_mem_of_ne_nil _ hne
          obtain ⟨hlog, hin⟩ := mem_rowsOf.mp hrow
          rw [archiveDay_error hne (hstorage day ⟨row, hlog, hin⟩)] at hok
          cases hok
        · refine hdeletes days hdays hpos row hlog h ?_
          rw [(applyRetention_keeps hdays hpos hon hstorage hlog h).1]
          exact hlog
      · exact .inl hstorage
  · intro h
    refine ⟨applyRetention_safe, fun hon hstorage ↦ ?_⟩
    rcases h with hoff | hrefuses | ⟨hnone, hkeeps⟩
    · rw [hon] at hoff
      cases hoff
    · exact absurd hstorage hrefuses
    · refine ⟨⟨false, s, ?_⟩, fun days hdays hpos row hlog heligible ↦ ?_⟩
      · rw [archiveDay_empty (rowsOf_eq_nil.mpr hnone)]
      · exact absurd heligible (hkeeps days hdays hpos row hlog)

end

def working : Platform where
  upload _ := true
  encode _ rows := rows.map fun _ ↦ [0]
  sha256 _ := "digest"

def oneRow : Store where
  log := ⟨[{
    id := "row", orgId := "org", action := "user.login", resourceType := "User"
    createdAt := 1000 }], by decide⟩

def weekly : Settings where
  retentionDays := some 7
  archiveEnabled := true

/-- A month later the row is archived to no avail, and stays. -/
theorem archive_fails :
    (archiveDay working oneRow "org" weekly 0).result = .error .hashFinalized ∧
      (applyRetention working oneRow "org" [] weekly (30 * dayMs)).skipped =
        some (.archiveFailed .hashFinalized) ∧
      (applyRetention working oneRow "org" [] weekly (30 * dayMs)).store.log = oneRow.log ∧
      ¬ Progress working oneRow "org" [] weekly (30 * dayMs) 0 := by
  refine ⟨rfl, rfl, rfl, fun hprogress ↦ ?_⟩
  obtain ⟨⟨archived, s', hok⟩, -⟩ := hprogress rfl fun _ _ ↦ rfl
  cases hok

end Shellius.Audit.Retention
