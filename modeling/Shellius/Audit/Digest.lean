import Shellius.Audit.DigestSchedule
import Shellius.Audit.Sink

/-!
# Digest sinks

`sinkService.runDigestSink` and the pass of `runDueDigests` that leads to it.  A
digest covers a period from the watermark of the sink up to a ceiling, and a run that
succeeds moves the watermark to the millisecond after the ceiling.

The periods of the runs that succeeded, those that had nothing to report included,
lie end to end from the creation of the sink to the watermark (`Contiguous`), except
for what `digestDue` cuts off a period that is too long.  A digest has the rows of its
period, or the first of them if there are more than it may have (`Period.rows`).
-/

namespace Shellius.Audit.Digest

open Lib DigestSchedule

/-- What is fixed for a sink. -/
structure Config where
  orgId : Id
  filters : Filters := {}
  schedule : Schedule
  /-- `READ_LAG_MS` -/
  readLagMs : Int := 5000
  /-- `MAX_DIGEST_ROWS` -/
  maxDigestRows : Nat := 20000

/-- `AuditSink`; `lastOkAt` is the watermark. -/
structure SinkRow where
  createdAt : Int
  lastOkAt : Option Int := none
  isActive : Bool := true
  batchSize : Nat := 500
  consecutiveFailures : Nat := 0
  backoffUntil : Option Int := none

/-- The end of what has been covered, and the beginning of what has not. -/
def SinkRow.watermark (sink : SinkRow) : Int := sink.lastOkAt.getD sink.createdAt

/-- A run that succeeded.  It sent a digest if it had any rows. -/
structure Period where
  now : Int
  clock : Int
  anchor : Int
  fromTime : Int
  ceiling : Int
  rows : List AuditLog

structure Store where
  clock : Int
  log : Log
  sink : SinkRow
  periods : List Period := []

/-- How a run turns out, if it comes to that. -/
inductive Answer
  | ok | notReady
  | failed (permanent : Bool)
deriving DecidableEq

/-- The inner loop over a batch; whether the digest was full. -/
def collectBatch (max : Nat) : List AuditLog → List AuditLog → List AuditLog × Bool
  | rows, [] => (rows, false)
  | rows, r :: batch =>
    if max ≤ rows.length then (rows, true) else collectBatch max (rows ++ [r]) batch

/-- The outer loop over the batches. -/
def collect (max : Nat) : List AuditLog → List (List AuditLog) → List AuditLog × Bool
  | rows, [] => (rows, false)
  | rows, batch :: batches =>
    match collectBatch max rows batch with
    | (rows, true) => (rows, true)
    | (rows, false) => collect max rows batches

section

variable (cfg : Config)

/-- `sinkRow.batchSize || 500` -/
def SinkRow.effectiveBatchSize (sink : SinkRow) : Nat :=
  if sink.batchSize = 0 then 500 else sink.batchSize

def digestRows (s : Store) (fromTime ceiling : Int) : List AuditLog × Bool :=
  collect cfg.maxDigestRows []
    (stream s.log cfg.orgId cfg.filters ceiling s.sink.effectiveBatchSize
      (toLex (fromTime, "") : Position))

/-- The run failed. -/
def backOffStep (s : Store) (permanent : Bool) : Store :=
  let failures := s.sink.consecutiveFailures + 1
  if permanent ∨ Sink.maxConsecutiveFailures ≤ failures then
    { s with sink := { s.sink with consecutiveFailures := failures, isActive := false } }
  else
    { s with
      sink := { s.sink with
        consecutiveFailures := failures
        backoffUntil := some (s.clock + Sink.backoffFor failures) } }

/-- The run succeeded. -/
def coverStep (s : Store) (p : Period) : Store :=
  { s with
    sink := { s.sink with
      lastOkAt := some (p.ceiling + 1), consecutiveFailures := 0, backoffUntil := none }
    periods := p :: s.periods }

/-- `runDigestSink` at the tick `now` -/
def runDigestSink (s : Store) (now : Int) (answer : Answer) : Store :=
  if answer = .notReady then s
  else
    let window := digestDue cfg.schedule (some s.sink.watermark) now
    if window.due = false then s
    else
      let ceiling := min window.toTime (s.clock - cfg.readLagMs)
      -- the whole period may still be changing
      if ceiling ≤ window.fromTime then s
      else
        match answer with
        | .failed permanent => backOffStep s permanent
        | _ =>
          coverStep s {
            now, clock := s.clock, anchor := s.sink.watermark
            fromTime := window.fromTime, ceiling
            rows := (digestRows cfg s window.fromTime ceiling).1 }

/-- `runDueDigests`, as far as one sink is concerned -/
def runDueDigests (s : Store) (now : Int) (answer : Answer) : Store :=
  if s.sink.isActive ∧ s.sink.backoffUntil.all (· ≤ now) then runDigestSink cfg s now answer else s

inductive Change
  | tick (clock : Int)
  | appear (row : AuditLog)
  | /-- The job runs, begun at the instant `now`. -/
    job (now : Int) (answer : Answer)
  | /-- `update` -/
    update (isActive : Option Bool) (batchSize : Option Nat)

/-- `update`, of the sink -/
def updateRow (sink : SinkRow) (isActive : Option Bool) (batchSize : Option Nat) : SinkRow :=
  let sink := { sink with
    isActive := isActive.getD sink.isActive, batchSize := batchSize.getD sink.batchSize }
  if isActive = some true then { sink with consecutiveFailures := 0, backoffUntil := none }
  else sink

def step (s : Store) : Change → Option Store
  | .tick clock => if s.clock ≤ clock then some { s with clock } else none
  -- a row can be seen `READ_LAG_MS` after its timestamp at the latest
  | .appear row =>
    if s.clock < row.createdAt + cfg.readLagMs then
      (s.log.insert? row).map fun log ↦ { s with log }
    else none
  | .job now answer => if now ≤ s.clock then some (runDueDigests cfg s now answer) else none
  | .update isActive batchSize => some { s with sink := updateRow s.sink isActive batchSize }

end

/-! ## What a digest has -/

section

variable {max : Nat} {rows : List AuditLog} {batches : List (List AuditLog)}

theorem collectBatch_spec (batch : List AuditLog) (h : rows.length ≤ max) :
    (collectBatch max rows batch).1 = (rows ++ batch).take max ∧
      ((collectBatch max rows batch).2 = true ↔ max < rows.length + batch.length) := by
  induction batch generalizing rows with
  | nil =>
    rw [collectBatch, List.append_nil, List.take_of_length_le h]
    refine ⟨rfl, iff_of_false Bool.false_ne_true ?_⟩
    exact Nat.not_lt.mpr h
  | cons r batch ih =>
    rw [collectBatch]
    split
    · rename_i hfull
      have hlen : rows.length = max := Nat.le_antisymm h hfull
      refine ⟨(List.take_left' hlen).symm, iff_of_true rfl ?_⟩
      rw [List.length_cons]
      omega
    · rename_i hroom
      have hlen : (rows ++ [r]).length ≤ max := by
        rw [List.length_append, List.length_singleton]
        omega
      obtain ⟨hrows, hmore⟩ := ih hlen
      refine ⟨by rw [hrows, List.append_assoc, List.singleton_append], hmore.trans ?_⟩
      rw [List.length_append, List.length_singleton, List.length_cons]
      omega

theorem collect_fst (h : rows.length ≤ max) :
    (collect max rows batches).1 = (rows ++ batches.flatten).take max := by
  induction batches generalizing rows with
  | nil => rw [collect, List.flatten_nil, List.append_nil, List.take_of_length_le h]
  | cons batch batches ih =>
    obtain ⟨hrows, hmore⟩ := collectBatch_spec batch h
    rw [List.flatten_cons, ← List.append_assoc]
    simp only [collect]
    split
    · rename_i rows' heq
      rw [heq] at hrows hmore
      have hlen : max ≤ (rows ++ batch).length := by
        rw [List.length_append]
        exact Nat.le_of_lt (hmore.mp rfl)
      rw [List.take_append_of_le_length hlen, ← hrows]
    · rename_i rows' heq
      rw [heq] at hrows hmore
      have hlen : (rows ++ batch).length ≤ max := by
        rw [List.length_append]
        exact Nat.le_of_not_lt fun hlt ↦ Bool.false_ne_true (hmore.mpr hlt)
      obtain rfl : rows' = rows ++ batch := hrows.trans (List.take_of_length_le hlen)
      exact ih hlen

end

section

variable {cfg : Config} {s s' : Store} {log : Log} {fromTime ceiling now createdAt watermark : Int}
  {row : AuditLog} {p q : Period} {ps : List Period} {answer : Answer}

def periodRows (cfg : Config) (log : Log) (fromTime ceiling : Int) : List AuditLog :=
  above AuditLog.position (toLex (fromTime, "") : Position)
    (upTo log cfg.orgId cfg.filters ceiling)

theorem mem_periodRows : row ∈ periodRows cfg log fromTime ceiling ↔
    row ∈ log ∧ passes cfg.orgId cfg.filters row = true ∧ fromTime ≤ row.createdAt ∧
      row.createdAt ≤ ceiling := by
  rw [periodRows, mem_above, mem_upTo, WithBot.coe_lt_coe, toLex_empty_lt]
  tauto

theorem digestRows_fst : (digestRows cfg s fromTime ceiling).1 =
    (periodRows cfg s.log fromTime ceiling).take cfg.maxDigestRows := by
  have hbatch : 0 < s.sink.effectiveBatchSize := by
    unfold SinkRow.effectiveBatchSize
    split
    · decide
    · rename_i hne
      exact Nat.pos_of_ne_zero hne
  rw [digestRows, collect_fst (Nat.zero_le _), flatten_stream hbatch, List.nil_append, periodRows]

theorem periodRows_insert (h : ∀ b ∈ log, b.id ≠ row.id) (hlt : ceiling < row.createdAt) :
    periodRows cfg (log.insert row h) fromTime ceiling = periodRows cfg log fromTime ceiling := by
  have hsame : upTo (log.insert row h) cfg.orgId cfg.filters ceiling =
      upTo log cfg.orgId cfg.filters ceiling := by
    have hout : ¬ row.createdAt ≤ ceiling := Int.not_le.mpr hlt
    simp [upTo, Keyed.insert, hout]
  rw [periodRows, hsame, periodRows]

/-! ## The periods -/

def Period.occurrence (cfg : Config) (p : Period) : Int := previousOccurrence cfg.schedule p.now

/-- The beginning of the period was cut off. -/
def Period.Clamped (p : Period) : Prop :=
  p.anchor < p.fromTime ∧ p.fromTime = p.now - maxWindowMs

def Period.Contains (p : Period) (t : Int) : Prop := p.fromTime ≤ t ∧ t ≤ p.ceiling

/-- The periods, newest first, lie end to end, up to what was cut off. -/
def Contiguous (createdAt : Int) : List Period → Int → Prop
  | [], watermark => watermark = createdAt
  | p :: ps, watermark =>
    watermark = p.ceiling + 1 ∧ p.fromTime ≤ p.ceiling ∧ (p.fromTime = p.anchor ∨ p.Clamped) ∧
      Contiguous createdAt ps p.anchor

theorem anchor_le (h : p.fromTime = p.anchor ∨ p.Clamped) : p.anchor ≤ p.fromTime := by
  rcases h with h | h
  · exact Int.le_of_eq h.symm
  · exact Int.le_of_lt h.1

theorem Contiguous.lt (h : Contiguous createdAt ps watermark) (hp : p ∈ ps) :
    p.ceiling < watermark := by
  induction ps generalizing watermark with
  | nil => cases hp
  | cons q ps ih =>
    obtain ⟨rfl, hle, hfrom, hrest⟩ := h
    rcases List.mem_cons.mp hp with rfl | hp
    · omega
    · have hlt := ih hrest hp
      have hanchor := anchor_le hfrom
      omega

theorem Contiguous.exists (h : Contiguous createdAt ps watermark) {t : Int} (hc : createdAt ≤ t)
    (ht : t < watermark) :
    ∃ p ∈ ps, p.Contains t ∨ p.Clamped ∧ p.anchor ≤ t ∧ t < p.fromTime := by
  induction ps generalizing watermark with
  | nil =>
    obtain rfl : watermark = createdAt := h
    omega
  | cons q ps ih =>
    obtain ⟨rfl, -, hfrom, hrest⟩ := h
    by_cases hold : t < q.anchor
    · obtain ⟨p, hp, hin⟩ := ih hrest hold
      exact ⟨p, List.mem_cons_of_mem _ hp, hin⟩
    · refine ⟨q, List.mem_cons_self, ?_⟩
      by_cases hin : q.fromTime ≤ t
      · exact .inl ⟨hin, by omega⟩
      · rcases hfrom with heq | hclamped
        · omega
        · exact .inr ⟨hclamped, by omega, by omega⟩

theorem Contiguous.countP_le_one (h : Contiguous createdAt ps watermark)
    (hrows : ∀ p ∈ ps, row ∈ p.rows → p.Contains row.createdAt) :
    ps.countP (fun p ↦ row ∈ p.rows) ≤ 1 := by
  induction ps generalizing watermark with
  | nil => exact Nat.zero_le _
  | cons q ps ih =>
    obtain ⟨-, -, hfrom, hrest⟩ := h
    have htail := ih hrest fun p hp ↦ hrows p (List.mem_cons_of_mem _ hp)
    rw [List.countP_cons]
    split
    · rename_i hq
      have hstart := (hrows q List.mem_cons_self (of_decide_eq_true hq)).1
      have hnone : ps.countP (fun p ↦ row ∈ p.rows) = 0 := by
        rw [List.countP_eq_zero]
        intro p hp hmem
        have hend := (hrows p (List.mem_cons_of_mem _ hp) (of_decide_eq_true hmem)).2
        have hlt := hrest.lt hp
        have hanchor := anchor_le hfrom
        exact absurd (Int.le_trans hstart hend) (by omega)
      omega
    · exact htail

/-! ## The invariant -/

/-- What is so of a period from when its run succeeded. -/
structure Period.Valid (cfg : Config) (s : Store) (p : Period) : Prop where
  rows : p.rows = (periodRows cfg s.log p.fromTime p.ceiling).take cfg.maxDigestRows
  settled : p.ceiling + cfg.readLagMs ≤ s.clock
  due : p.anchor < p.occurrence cfg
  /-- A run that is not early covers the time up to its occurrence. -/
  reaches : p.occurrence cfg + cfg.readLagMs ≤ p.clock → p.occurrence cfg ≤ p.ceiling

structure Inv (cfg : Config) (s : Store) : Prop where
  contiguous : Contiguous s.sink.createdAt s.periods s.sink.watermark
  valid : ∀ p ∈ s.periods, p.Valid cfg s

structure Period.Next (cfg : Config) (s : Store) (p : Period) : Prop extends
    Period.Valid cfg s p where
  anchor : p.anchor = s.sink.watermark
  fromTime_le : p.fromTime ≤ p.ceiling
  fromTime : p.fromTime = p.anchor ∨ p.Clamped

/-- A step that covers nothing. -/
structure Idle (s s' : Store) : Prop where
  clock : s'.clock = s.clock
  log : s'.log = s.log
  periods : s'.periods = s.periods
  createdAt : s'.sink.createdAt = s.sink.createdAt
  watermark : s'.sink.watermark = s.sink.watermark

theorem Idle.refl : Idle s s := ⟨rfl, rfl, rfl, rfl, rfl⟩

theorem idle_backOffStep {permanent : Bool} : Idle s (backOffStep s permanent) := by
  unfold backOffStep
  dsimp only
  split
  · exact ⟨rfl, rfl, rfl, rfl, rfl⟩
  · exact ⟨rfl, rfl, rfl, rfl, rfl⟩

theorem runDigestSink_cases : Idle s (runDigestSink cfg s now answer) ∨
    ∃ p : Period, p.Next cfg s ∧ runDigestSink cfg s now answer = coverStep s p := by
  unfold runDigestSink
  split
  · exact .inl .refl
  · dsimp only
    split
    · exact .inl .refl
    · rename_i hdue
      obtain ⟨hto, hanchor, hfrom⟩ := digestDue_spec (Bool.not_eq_false _ ▸ hdue)
      split
      · exact .inl .refl
      · rename_i hceiling
        split
        · exact .inl idle_backOffStep
        · refine .inr ⟨_, ?_, rfl⟩
          rw [hto] at hceiling ⊢
          exact {
            rows := digestRows_fst
            settled := by
              dsimp only
              omega
            due := hanchor
            reaches := by
              intro hlate
              have hle : previousOccurrence cfg.schedule now ≤ now := previousOccurrence_le
              simp only [Period.occurrence] at hlate ⊢
              omega
            anchor := rfl
            fromTime_le := Int.le_of_lt (Int.not_le.mp hceiling)
            fromTime := hfrom }

theorem Inv.idle (h : Inv cfg s) (hi : Idle s s') : Inv cfg s' where
  contiguous := by
    rw [hi.createdAt, hi.periods, hi.watermark]
    exact h.contiguous
  valid p hp := by
    have hv := h.valid p (hi.periods ▸ hp)
    exact ⟨hi.log ▸ hv.rows, hi.clock ▸ hv.settled, hv.due, hv.reaches⟩

theorem Inv.cover (h : Inv cfg s) (hp : p.Next cfg s) : Inv cfg (coverStep s p) where
  contiguous := ⟨rfl, hp.fromTime_le, hp.fromTime, hp.anchor ▸ h.contiguous⟩
  valid q hq := by
    rcases List.mem_cons.mp hq with rfl | hq
    · exact { hp.toValid with }
    · exact { h.valid q hq with }

theorem Inv.step {c : Change} (h : Inv cfg s) (hs : step cfg s c = some s') : Inv cfg s' := by
  cases c with
  | tick clock =>
    simp only [Digest.step] at hs
    split at hs
    · rename_i hle
      obtain rfl := Option.some.inj hs
      refine ⟨h.contiguous, fun p hp ↦ ?_⟩
      exact { h.valid p hp with settled := Int.le_trans (h.valid p hp).settled hle }
    · cases hs
  | appear row =>
    simp only [Digest.step] at hs
    split at hs
    · rename_i hlate
      obtain ⟨log, hlog, rfl⟩ := Option.map_eq_some_iff.mp hs
      obtain ⟨hfree, rfl⟩ := Keyed.insert?_eq_some.mp hlog
      refine ⟨h.contiguous, fun p hp ↦ ?_⟩
      have hv := h.valid p hp
      have hlt : p.ceiling < row.createdAt :=
        Int.lt_of_add_lt_add_right (Int.lt_of_le_of_lt hv.settled hlate)
      exact { hv with rows := by rw [periodRows_insert hfree hlt]; exact hv.rows }
    · cases hs
  | job now answer =>
    simp only [Digest.step, runDueDigests] at hs
    split at hs
    · obtain rfl := Option.some.inj hs
      split
      · have hcases : Idle s (runDigestSink cfg s now answer) ∨
            ∃ p : Period, p.Next cfg s ∧ runDigestSink cfg s now answer = coverStep s p :=
          runDigestSink_cases
        rcases hcases with hidle | ⟨p, hp, heq⟩
        · exact h.idle hidle
        · rw [heq]
          exact h.cover hp
      · exact h
    · cases hs
  | update isActive batchSize =>
    obtain rfl := Option.some.inj hs
    refine h.idle ⟨rfl, rfl, rfl, ?_, ?_⟩
    · simp only [updateRow]
      split <;> rfl
    · simp only [updateRow]
      split <;> rfl

/-! ## Every row is in one digest -/

def timesSent (s : Store) (row : AuditLog) : Nat := s.periods.countP fun p ↦ row ∈ p.rows

/-- The row is in the period, but comes after as many as a digest may have. -/
def Period.LeavesOut (cfg : Config) (p : Period) (row : AuditLog) : Prop :=
  p.Contains row.createdAt ∧ p.rows.length = cfg.maxDigestRows ∧
    ∀ r ∈ p.rows, r.position < row.position

/-- What is promised of a digest sink. -/
structure Exact (cfg : Config) (s : Store) : Prop where
  /-- No digest is sent for an occurrence after one that was not early. -/
  once : s.periods.Pairwise fun later earlier ↦
    earlier.occurrence cfg + cfg.readLagMs ≤ earlier.clock →
      later.occurrence cfg ≠ earlier.occurrence cfg
  /-- The runs that succeeded cover the time from the creation of the sink to the
  watermark, one after the other, up to what was cut off. -/
  contiguous : Contiguous s.sink.createdAt s.periods s.sink.watermark
  timesSent_le : ∀ row, timesSent s row ≤ 1
  /-- A row that is older than the watermark has been sent, unless it was cut off with the
  beginning of its period or there were too many before it. -/
  timesSent_eq : ∀ row ∈ s.log, passes cfg.orgId cfg.filters row = true →
    s.sink.createdAt ≤ row.createdAt → row.createdAt < s.sink.watermark → timesSent s row = 1 ∨
      ∃ p ∈ s.periods, p.LeavesOut cfg row ∨
        p.Clamped ∧ p.anchor ≤ row.createdAt ∧ row.createdAt < p.fromTime

theorem Period.Valid.contains (h : p.Valid cfg s) (hr : row ∈ p.rows) :
    p.Contains row.createdAt := by
  rw [h.rows] at hr
  exact (mem_periodRows.mp (List.mem_of_mem_take hr)).2.2

theorem Period.Valid.leavesOut (h : p.Valid cfg s) (hlog : row ∈ s.log)
    (hpass : passes cfg.orgId cfg.filters row = true) (hin : p.Contains row.createdAt)
    (hr : row ∉ p.rows) : p.LeavesOut cfg row := by
  have hmem : row ∈ periodRows cfg s.log p.fromTime p.ceiling :=
    mem_periodRows.mpr ⟨hlog, hpass, hin⟩
  have hsorted : (periodRows cfg s.log p.fromTime p.ceiling).Pairwise fun a b ↦
      a.position < b.position := pairwise_lt_above nodup_position
  rw [← List.take_append_drop cfg.maxDigestRows (periodRows cfg s.log p.fromTime p.ceiling),
    ← h.rows] at hmem hsorted
  rcases List.mem_append.mp hmem with hmem | hmem
  · exact absurd hmem hr
  · refine ⟨hin, ?_, fun r hr ↦ (List.pairwise_append.mp hsorted).2.2 r hr row hmem⟩
    have hlen := List.length_pos_of_mem hmem
    rw [List.length_drop] at hlen
    rw [h.rows, List.length_take]
    omega

theorem Contiguous.once (h : Contiguous createdAt ps watermark) (hv : ∀ p ∈ ps, p.Valid cfg s) :
    ps.Pairwise fun later earlier ↦
      earlier.occurrence cfg + cfg.readLagMs ≤ earlier.clock →
        later.occurrence cfg ≠ earlier.occurrence cfg := by
  induction ps generalizing watermark with
  | nil => exact .nil
  | cons p ps ih =>
    obtain ⟨-, -, -, hrest⟩ := h
    refine .cons (fun q hq hlate ↦ ?_) (ih hrest fun q hq ↦ hv q (List.mem_cons_of_mem _ hq))
    -- the earlier one covers its occurrence, and the later one is due after that
    have hreaches := (hv q (List.mem_cons_of_mem _ hq)).reaches hlate
    have hlt := hrest.lt hq
    have hdue := (hv p List.mem_cons_self).due
    omega

theorem Inv.exact (h : Inv cfg s) : Exact cfg s where
  once := h.contiguous.once h.valid
  contiguous := h.contiguous
  timesSent_le row := h.contiguous.countP_le_one fun p hp hr ↦ (h.valid p hp).contains hr
  timesSent_eq row hlog hpass hcreated hlt := by
    obtain ⟨p, hp, hin | hcut⟩ := h.contiguous.exists hcreated hlt
    · by_cases hr : row ∈ p.rows
      · refine .inl (Nat.le_antisymm ?_ (List.countP_pos_iff.mpr ⟨p, hp, decide_eq_true hr⟩))
        exact h.contiguous.countP_le_one fun p hp hr ↦ (h.valid p hp).contains hr
      · exact .inr ⟨p, hp, .inl ((h.valid p hp).leavesOut hlog hpass hin hr)⟩
    · exact .inr ⟨p, hp, .inr hcut⟩

/-- **Every row is in one digest at most, and in one unless there were too many or the
period was cut off; the runs cover the time end to end; and no digest repeats one that was
not early.** -/
theorem run_exact {cs : List Change} (hnew : s.sink.lastOkAt = none) (hnone : s.periods = [])
    (hr : Run (step cfg) free s cs s') : Exact cfg s' := by
  have h₀ : Inv cfg s := by
    constructor
    · rw [hnone, SinkRow.watermark, hnew]
      rfl
    · intro p hp
      simp [hnone] at hp
  exact (hr.invariant h₀ fun _ _ _ h hs _ ↦ h.step hs).exact

end

def daily : Config where
  orgId := "org"
  schedule := normalizeSchedule ⟨none, some 0, none⟩
  maxDigestRows := 1

def firstDay (rows : List AuditLog) (nodup : (rows.map AuditLog.id).Nodup := by decide) : Store where
  clock := 1000
  log := ⟨rows, nodup⟩
  sink := { createdAt := 1000 }

def nextDay : List Change := [.tick 90000000, .job 90000000 .ok]

def failsOnce : List Change :=
  [.tick 90000000, .job 90000000 (.failed false), .tick 90060000, .job 90060000 .ok]

theorem run_exact_entry : ∃ s, Exact daily s ∧ timesSent s (Sink.entry "a" 2000) = 1 ∧
    s.sink.watermark = 90055001 := by
  have h : exec (step daily) (firstDay [Sink.entry "a" 2000]) failsOnce = some _ := rfl
  exact ⟨_, run_exact rfl rfl (run_of_exec h), rfl, rfl⟩

/-- Every row that is older than the watermark has been sent once, unless the beginning of
a period was cut off. -/
def SentOnce (cfg : Config) (s : Store) : Prop :=
  ∀ row ∈ s.log, passes cfg.orgId cfg.filters row = true → s.sink.createdAt ≤ row.createdAt →
    row.createdAt < s.sink.watermark → timesSent s row = 1 ∨ ∃ p ∈ s.periods, p.Clamped

/-- The digests that were sent lie end to end, up to what was cut off. -/
def DigestsContiguous (s : Store) : Prop :=
  (s.periods.filter fun p ↦ p.rows ≠ []).IsChain fun later earlier ↦
    later.fromTime = earlier.ceiling + 1 ∨ later.Clamped

/-- With a row too many, one is never sent; and a day on which nothing happens lies between
two digests. -/
theorem row_left_out :
    (∃ s, Run (step daily) free (firstDay [Sink.entry "a" 2000, Sink.entry "b" 3000]) nextDay s ∧
      timesSent s (Sink.entry "b" 3000) = 0 ∧ ¬ SentOnce daily s) ∧
    ∃ s, Run (step daily) free (firstDay [Sink.entry "a" 2000, Sink.entry "b" 200000000])
      [.tick 90000000, .job 90000000 .ok, .tick 180000000, .job 180000000 .ok,
        .tick 270000000, .job 270000000 .ok] s ∧ ¬ DigestsContiguous s := by
  constructor
  · have h : exec (step daily) (firstDay [Sink.entry "a" 2000, Sink.entry "b" 3000]) nextDay =
        some _ := rfl
    refine ⟨_, run_of_exec h, rfl, fun hsent ↦ ?_⟩
    rcases hsent (Sink.entry "b" 3000) (by decide) (by decide) (by decide) (by decide)
      with hone | ⟨p, hp, hclamped⟩
    · exact absurd hone (by decide)
    · obtain rfl := List.mem_singleton.mp hp
      exact absurd hclamped.1 (by decide)
  · have h : exec (step daily) (firstDay [Sink.entry "a" 2000, Sink.entry "b" 200000000])
        [.tick 90000000, .job 90000000 .ok, .tick 180000000, .job 180000000 .ok,
          .tick 270000000, .job 270000000 .ok] = some _ := rfl
    refine ⟨_, run_of_exec h, fun hchain ↦ ?_⟩
    rcases (List.isChain_cons_cons.mp hchain).1 with hnext | hclamped
    · exact absurd hnext (by decide)
    · exact absurd hclamped.1 (by decide)

end Shellius.Audit.Digest
