import Shellius.Audit.Stream
import Shellius.Lib.Pool

/-!
# Streaming sinks

`sinkService.runSink` with every step of the database and of the destination on its
own, begun the way `runDueSinks` of `jobs/auditExport.js` begins it: the row of the
sink is read with those of the others, and the run gets it when its turn comes.  The
lock of the job is not modelled.  It keeps two runs apart, but not the row a run is
given from getting old, and it fails open.

A run goes by the cursor of the row it was given.  Whatever the order of the runs, a
row the stored cursor is past has been delivered (`run_delivered`).  That the stored
cursor only moves forward is another matter: a run with an old row begins all over
and takes it back.
-/

namespace Shellius.Audit.Sink

open Lib

structure Config where
  orgId : Id
  filters : Filters := {}
  /-- `READ_LAG_MS` -/
  readLagMs : Int := 5000
  /-- `MAX_BATCHES_PER_RUN` -/
  maxBatchesPerRun : Nat := 10

/-- `MAX_CONSECUTIVE_FAILURES` -/
def maxConsecutiveFailures : Nat := 10

def backoffFor (failures : Nat) : Int := min (30000 * 2 ^ (failures - 1)) (60 * 60 * 1000)

/-- `AuditSink`; the cursor is `⊥` where `cursorCreatedAt` is null. -/
structure SinkRow where
  isActive : Bool := true
  batchSize : Nat := 500
  cursor : WithBot Position
  consecutiveFailures : Nat := 0
  backoffUntil : Option Int := none

/-- A batch, which is never empty. -/
structure Batch where
  rows : List AuditLog
  ne_nil : rows ≠ []

def Batch.last (b : Batch) : AuditLog := b.rows.getLast b.ne_nil

/-- `AuditSinkDelivery` -/
structure Delivery where
  fromPosition : Position
  toPosition : Position
  count : Nat
  failedAttempt : Option Nat

def Batch.delivery (b : Batch) (failedAttempt : Option Nat) : Delivery where
  fromPosition := (b.rows.head b.ne_nil).position
  toPosition := b.last.position
  count := b.rows.length
  failedAttempt

/-- The database, and the rows that have been handed to a successful delivery. -/
structure Store where
  now : Int
  log : Log
  sink : SinkRow
  deliveries : List Delivery := []
  delivered : List AuditLog := []

inductive Point
  | ready
  | ceiling
  | read (ceiling : Int)
  | deliver (b : Batch)
  | commit (b : Batch)
  | report (b : Batch) (permanent : Bool) (retryAfterMs : Option Int)
  | backOff (permanent : Bool) (retryAfterMs : Option Int)

/-- A pass over the sinks that comes to this one. -/
inductive Call
  | findDue
  | /-- It runs the sink with the row it read, from its own cursor, for so many batches
    more after this one. -/
    running (row : SinkRow) (cursor : WithBot Position) (left : Nat) (point : Point)

/-- How a step turns out. -/
inductive Answer
  | ok | notReady
  | failed (permanent : Bool) (retryAfterMs : Option Int)

/-- The next turn of the loop, if there is one. -/
def loop (row : SinkRow) (cursor : WithBot Position) : Nat → Option Call
  | 0 => none
  | left + 1 => some (.running row cursor left .ceiling)

/-- The cursor moves to the end of the batch. -/
def commitStep (s : Store) (b : Batch) : Store :=
  { s with
    sink := { s.sink with
      cursor := b.last.position, consecutiveFailures := 0, backoffUntil := none }
    deliveries := b.delivery none :: s.deliveries }

/-- The sink is put off; the failures are those of the row the run was given. -/
def backOffStep (s : Store) (row : SinkRow) (permanent : Bool) (retryAfterMs : Option Int) :
    Store :=
  let failures := row.consecutiveFailures + 1
  if permanent ∨ maxConsecutiveFailures ≤ failures then
    { s with sink := { s.sink with consecutiveFailures := failures, isActive := false } }
  else
    { s with
      sink := { s.sink with
        consecutiveFailures := failures
        backoffUntil := some (s.now + retryAfterMs.getD (backoffFor failures)) } }

section

variable (cfg : Config)

def readBatch (s : Store) (row : SinkRow) (cursor : WithBot Position) (ceiling : Int) :
    List AuditLog :=
  nextBatch s.log cfg.orgId cfg.filters ceiling row.batchSize cursor

def runStep (s : Store) (row : SinkRow) (cursor : WithBot Position) (left : Nat) :
    Point → Answer → Option (Store × Option Call)
  | .ready, .ok => some (s, loop row cursor cfg.maxBatchesPerRun)
  | .ready, .notReady => some (s, none)
  | .ceiling, .ok => some (s, some (.running row cursor left (.read (s.now - cfg.readLagMs))))
  | .read ceiling, .ok =>
    if h : readBatch cfg s row cursor ceiling = [] then some (s, none)
    else some (s, some (.running row cursor left (.deliver ⟨_, h⟩)))
  | .deliver b, .ok =>
    some ({ s with delivered := b.rows ++ s.delivered },
      some (.running row cursor left (.commit b)))
  | .deliver b, .failed permanent retryAfterMs =>
    some (s, some (.running row cursor left (.report b permanent retryAfterMs)))
  | .commit b, .ok => some (commitStep s b, loop row b.last.position left)
  -- an error of the database ends up where a failed delivery does
  | .commit b, .failed _ _ => some (s, some (.running row cursor left (.report b false none)))
  | .report b permanent retryAfterMs, .ok =>
    some ({ s with
        deliveries := b.delivery (some (row.consecutiveFailures + 1)) :: s.deliveries },
      some (.running row cursor left (.backOff permanent retryAfterMs)))
  | .backOff permanent retryAfterMs, .ok => some (backOffStep s row permanent retryAfterMs, none)
  | _, _ => none

inductive Change
  | tick (now : Int)
  | appear (row : AuditLog)
  | /-- `update` -/
    update (isActive : Option Bool) (batchSize : Option Nat)

/-- `update`, of the sink -/
def updateRow (row : SinkRow) (isActive : Option Bool) (batchSize : Option Nat) : SinkRow :=
  let row := { row with
    isActive := isActive.getD row.isActive, batchSize := batchSize.getD row.batchSize }
  if isActive = some true then { row with consecutiveFailures := 0, backoffUntil := none } else row

def program : Program Store Unit Call Answer Change where
  start _ := .findDue
  act _ s
    | .findDue, .ok =>
      if s.sink.isActive ∧ s.sink.backoffUntil.all (· ≤ s.now) then
        some (s, some (.running s.sink s.sink.cursor cfg.maxBatchesPerRun .ready))
      else some (s, none)
    | .findDue, _ => none
    | .running row cursor left point, answer => runStep cfg s row cursor left point answer
  env s
    | .tick now => if s.now ≤ now then some { s with now } else none
    -- a row can be seen `READ_LAG_MS` after its timestamp at the latest
    | .appear row =>
      if s.now < row.createdAt + cfg.readLagMs then
        (s.log.insert? row).map fun log ↦ { s with log }
      else none
    | .update isActive batchSize => some { s with sink := updateRow s.sink isActive batchSize }

end

/-- The cursor is moved from where the run found it. -/
def timely (s : Store) : Call → Answer → Bool
  | .running _ cursor _ (.commit _), .ok => s.sink.cursor = cursor
  | _, _ => true

/-- The cursor is moved from where the run found it. -/
def undisturbed (p : Pool Store Call) : Event Unit Answer Change → Bool
  | .act i e => (p.calls i).all fun k ↦ timely p.store k e
  | _ => true

/-- Runs in which it always is. -/
def Undisturbed (p : Pool Store Call) (e : Event Unit Answer Change) (_ : Pool Store Call) : Prop :=
  undisturbed p e = true

section

variable {cfg : Config} {start cursor : WithBot Position} {s s' : Store} {row : SinkRow} {b : Batch}
  {k : Call} {left : Nat} {point : Point} {answer : Answer} {ceiling : Int}

/-! ## What a cursor is past -/

/-- The row is one the sink, which began at `start`, has to ship. -/
def Owed (cfg : Config) (start : WithBot Position) (row : AuditLog) : Prop :=
  passes cfg.orgId cfg.filters row = true ∧ start < row.position

/-- A place a reader may have come to: no row before it is on its way. -/
def Settled (cfg : Config) (s : Store) (p : Position) : Prop := p.createdAt + cfg.readLagMs ≤ s.now

/-- The cursor is where the sink began, or settled, and what it is past is delivered. -/
structure Covered (cfg : Config) (start : WithBot Position) (s : Store) (cursor : WithBot Position) :
    Prop where
  settled : cursor = start ∨ ∃ p : Position, cursor = p ∧ Settled cfg s p
  delivered : ∀ row ∈ s.log, Owed cfg start row → row.position ≤ cursor → row ∈ s.delivered

/-- The batch has everything between the cursor and its end. -/
structure Complete (cfg : Config) (s : Store) (cursor : WithBot Position) (b : Batch) : Prop where
  all : ∀ row ∈ s.log, passes cfg.orgId cfg.filters row = true → cursor < row.position →
    row.position ≤ b.last.position → row ∈ b.rows
  settled : Settled cfg s b.last.position
  lt : cursor < b.last.position

theorem covered_start : Covered cfg start s start where
  settled := .inl rfl
  delivered _ _ howed hle := absurd hle (not_le_of_gt howed.2)

theorem complete_readBatch (hc : ceiling + cfg.readLagMs ≤ s.now)
    (hne : readBatch cfg s row cursor ceiling ≠ []) : Complete cfg s cursor ⟨_, hne⟩ := by
  have hlast := mem_of_mem_page (List.getLast_mem hne)
  refine ⟨?_, ?_, hlast.2⟩
  · intro r hr hpass hlt hle
    have hceiling : r.createdAt ≤ ceiling :=
      Int.le_trans (createdAt_le hle) (mem_upTo.mp hlast.1).2.2
    exact mem_page_of_le nodup_position hne (mem_upTo.mpr ⟨hr, hpass, hceiling⟩) hlt hle
  · exact Int.le_trans (Int.add_le_add_right (mem_upTo.mp hlast.1).2.2 _) hc

theorem Covered.last (h : Covered cfg start s cursor) (hb : Complete cfg s cursor b)
    (hd : b.rows ⊆ s.delivered) : Covered cfg start s b.last.position where
  settled := .inr ⟨_, rfl, hb.settled⟩
  delivered r hr howed hle := by
    by_cases hc : r.position ≤ cursor
    · exact h.delivered r hr howed hc
    · exact hd (hb.all r hr howed.1 (lt_of_not_ge hc) (WithBot.coe_le_coe.mp hle))

/-! ## Later states -/

/-- Time has passed, rows have been delivered, and late rows have appeared. -/
structure Later (cfg : Config) (s s' : Store) : Prop where
  now : s.now ≤ s'.now
  delivered : s.delivered ⊆ s'.delivered
  log : ∀ row ∈ s'.log, row ∈ s.log ∨ s.now < row.createdAt + cfg.readLagMs

theorem Later.of_log (hnow : s'.now = s.now) (hlog : s'.log = s.log)
    (hd : s.delivered ⊆ s'.delivered) : Later cfg s s' where
  now := Int.le_of_eq hnow.symm
  delivered := hd
  log _ hr := .inl (hlog ▸ hr)

theorem Settled.later {p : Position} (h : Settled cfg s p) (hl : Later cfg s s') :
    Settled cfg s' p := Int.le_trans h hl.now

theorem Covered.later (h : Covered cfg start s cursor) (hl : Later cfg s s') :
    Covered cfg start s' cursor where
  settled := by
    rcases h.settled with rfl | ⟨p, rfl, hp⟩
    · exact .inl rfl
    · exact .inr ⟨p, rfl, hp.later hl⟩
  delivered r hr howed hle := by
    rcases hl.log r hr with hold | hlate
    · exact hl.delivered (h.delivered r hold howed hle)
    · -- a row that has just appeared is not before the cursor
      rcases h.settled with rfl | ⟨p, rfl, hp⟩
      · exact absurd hle (not_le_of_gt howed.2)
      · exact absurd (WithBot.coe_le_coe.mp hle) (not_le_of_gt (position_lt hp hlate))

theorem Complete.later (h : Complete cfg s cursor b) (hl : Later cfg s s') :
    Complete cfg s' cursor b where
  all r hr hpass hlt hle := by
    rcases hl.log r hr with hold | hlate
    · exact h.all r hold hpass hlt hle
    · exact absurd hle (not_le_of_gt (position_lt h.settled hlate))
  settled := h.settled.later hl
  lt := h.lt

/-! ## The invariant -/

def At (cfg : Config) (s : Store) (cursor : WithBot Position) : Point → Prop
  | .read ceiling => ceiling + cfg.readLagMs ≤ s.now
  | .deliver b => Complete cfg s cursor b
  | .commit b => Complete cfg s cursor b ∧ b.rows ⊆ s.delivered
  | _ => True

def Assert (cfg : Config) (start : WithBot Position) (s : Store) (_ : Nat) : Call → Prop
  | .findDue => True
  | .running _ cursor _ point => Covered cfg start s cursor ∧ At cfg s cursor point

theorem At.later (h : At cfg s cursor point) (hl : Later cfg s s') : At cfg s' cursor point := by
  cases point with
  | read ceiling => exact Int.le_trans h hl.now
  | deliver b => exact Complete.later h hl
  | commit b => exact ⟨h.1.later hl, List.Subset.trans h.2 hl.delivered⟩
  | _ => trivial

theorem Assert.later {i : Nat} (h : Assert cfg start s i k) (hl : Later cfg s s') :
    Assert cfg start s' i k := by
  cases k with
  | findDue => trivial
  | running row cursor left point => exact ⟨h.1.later hl, h.2.later hl⟩

theorem assert_loop {i : Nat} (h : Covered cfg start s cursor) (hk : loop row cursor left = some k) :
    Assert cfg start s i k := by
  cases left with
  | zero => cases hk
  | succ left =>
    obtain rfl := Option.some.inj hk
    exact ⟨h, trivial⟩

theorem Later.of_same (hnow : s'.now = s.now) (hlog : s'.log = s.log)
    (hd : s'.delivered = s.delivered) : Later cfg s s' :=
  .of_log hnow hlog (hd ▸ List.Subset.refl _)

theorem backOffStep_spec {permanent : Bool} {retryAfterMs : Option Int} :
    (backOffStep s row permanent retryAfterMs).sink.cursor = s.sink.cursor ∧
      Later cfg s (backOffStep s row permanent retryAfterMs) := by
  unfold backOffStep
  dsimp only
  split
  · exact ⟨rfl, .of_same rfl rfl rfl⟩
  · exact ⟨rfl, .of_same rfl rfl rfl⟩

/-- A step of a run: nothing is undone, the stored cursor moves by a commit only, and
what the run holds is covered. -/
theorem runStep_spec {k' : Option Call} {i : Nat} (hc : Covered cfg start s cursor)
    (hat : At cfg s cursor point)
    (h : runStep cfg s row cursor left point answer = some (s', k')) :
    Later cfg s s' ∧
      (s'.sink.cursor = s.sink.cursor ∨
        ∃ b, point = .commit b ∧ answer = .ok ∧ s'.sink.cursor = b.last.position) ∧
      ∀ l, k' = some l → Assert cfg start s' i l := by
  cases point with
  | ready =>
    cases answer with
    | ok =>
      obtain ⟨rfl, rfl⟩ := Prod.mk.inj (Option.some.inj h)
      exact ⟨.of_same rfl rfl rfl, .inl rfl, fun l hl ↦ assert_loop hc hl⟩
    | notReady =>
      obtain ⟨rfl, rfl⟩ := Prod.mk.inj (Option.some.inj h)
      exact ⟨.of_same rfl rfl rfl, .inl rfl, fun l hl ↦ by cases hl⟩
    | failed permanent retryAfterMs => cases h
  | ceiling =>
    cases answer with
    | ok =>
      obtain ⟨rfl, rfl⟩ := Prod.mk.inj (Option.some.inj h)
      refine ⟨.of_same rfl rfl rfl, .inl rfl, fun l hl ↦ ?_⟩
      obtain rfl := Option.some.inj hl
      exact ⟨hc, Int.le_of_eq (Int.sub_add_cancel _ _)⟩
    | _ => cases h
  | read ceiling =>
    cases answer with
    | ok =>
      simp only [runStep] at h
      split at h
      · obtain ⟨rfl, rfl⟩ := Prod.mk.inj (Option.some.inj h)
        exact ⟨.of_same rfl rfl rfl, .inl rfl, fun l hl ↦ by cases hl⟩
      · rename_i hne
        obtain ⟨rfl, rfl⟩ := Prod.mk.inj (Option.some.inj h)
        refine ⟨.of_same rfl rfl rfl, .inl rfl, fun l hl ↦ ?_⟩
        obtain rfl := Option.some.inj hl
        exact ⟨hc, complete_readBatch hat hne⟩
    | _ => cases h
  | deliver b =>
    cases answer with
    | ok =>
      obtain ⟨rfl, rfl⟩ := Prod.mk.inj (Option.some.inj h)
      have hlater : Later cfg s { s with delivered := b.rows ++ s.delivered } :=
        .of_log rfl rfl (List.subset_append_right _ _)
      refine ⟨hlater, .inl rfl, fun l hl ↦ ?_⟩
      obtain rfl := Option.some.inj hl
      exact ⟨hc.later hlater, Complete.later hat hlater, List.subset_append_left _ _⟩
    | notReady => cases h
    | failed permanent retryAfterMs =>
      obtain ⟨rfl, rfl⟩ := Prod.mk.inj (Option.some.inj h)
      refine ⟨.of_same rfl rfl rfl, .inl rfl, fun l hl ↦ ?_⟩
      obtain rfl := Option.some.inj hl
      exact ⟨hc, trivial⟩
  | commit b =>
    cases answer with
    | ok =>
      obtain ⟨rfl, rfl⟩ := Prod.mk.inj (Option.some.inj h)
      have hlater : Later cfg s (commitStep s b) := .of_same rfl rfl rfl
      refine ⟨hlater, .inr ⟨b, rfl, rfl, rfl⟩, fun l hl ↦ ?_⟩
      exact assert_loop ((hc.last hat.1 hat.2).later hlater) hl
    | notReady => cases h
    | failed permanent retryAfterMs =>
      obtain ⟨rfl, rfl⟩ := Prod.mk.inj (Option.some.inj h)
      refine ⟨.of_same rfl rfl rfl, .inl rfl, fun l hl ↦ ?_⟩
      obtain rfl := Option.some.inj hl
      exact ⟨hc, trivial⟩
  | report b permanent retryAfterMs =>
    cases answer with
    | ok =>
      obtain ⟨rfl, rfl⟩ := Prod.mk.inj (Option.some.inj h)
      have hlater : Later cfg s { s with
          deliveries := b.delivery (some (row.consecutiveFailures + 1)) :: s.deliveries } :=
        .of_same rfl rfl rfl
      refine ⟨hlater, .inl rfl, fun l hl ↦ ?_⟩
      obtain rfl := Option.some.inj hl
      exact ⟨hc.later hlater, trivial⟩
    | _ => cases h
  | backOff permanent retryAfterMs =>
    cases answer with
    | ok =>
      obtain ⟨rfl, rfl⟩ := Prod.mk.inj (Option.some.inj h)
      obtain ⟨hcursor, hlater⟩ := backOffStep_spec
      exact ⟨hlater, .inl hcursor, fun l hl ↦ by cases hl⟩
    | _ => cases h

theorem Covered.runStep {k' : Option Call} (hI : Covered cfg start s s.sink.cursor)
    (hc : Covered cfg start s cursor) (hat : At cfg s cursor point)
    (h : runStep cfg s row cursor left point answer = some (s', k')) :
    Covered cfg start s' s'.sink.cursor := by
  obtain ⟨hlater, hsame | ⟨b, rfl, -, hlast⟩, -⟩ := runStep_spec (i := 0) hc hat h
  · rw [hsame]
    exact hI.later hlater
  · rw [hlast]
    exact (hc.last hat.1 hat.2).later hlater

theorem cursor_le_runStep {k' : Option Call} (hc : Covered cfg start s cursor)
    (hat : At cfg s cursor point)
    (htimely : timely s (.running row cursor left point) answer = true)
    (h : runStep cfg s row cursor left point answer = some (s', k')) :
    s.sink.cursor ≤ s'.sink.cursor := by
  obtain ⟨-, hsame | ⟨b, rfl, rfl, hlast⟩, -⟩ := runStep_spec (i := 0) hc hat h
  · exact le_of_eq hsame.symm
  · have hstored : s.sink.cursor = cursor := of_decide_eq_true htimely
    rw [hlast, hstored]
    exact le_of_lt hat.1.lt

theorem env_spec {d : Change} (h : (program cfg).env s d = some s') :
    Later cfg s s' ∧ s'.sink.cursor = s.sink.cursor := by
  cases d with
  | tick now =>
    simp only [program] at h
    split at h
    · rename_i hle
      obtain rfl := Option.some.inj h
      exact ⟨⟨hle, List.Subset.refl _, fun _ hr ↦ .inl hr⟩, rfl⟩
    · cases h
  | appear row =>
    simp only [program] at h
    split at h
    · rename_i hlate
      obtain ⟨log, hlog, rfl⟩ := Option.map_eq_some_iff.mp h
      obtain ⟨hfree, rfl⟩ := Keyed.insert?_eq_some.mp hlog
      refine ⟨⟨Int.le_refl _, List.Subset.refl _, fun r hr ↦ ?_⟩, rfl⟩
      rcases (Keyed.mem_insert hfree).mp hr with hr | rfl
      · exact .inl hr
      · exact .inr hlate
    · cases h
  | update isActive batchSize =>
    obtain rfl := Option.some.inj h
    refine ⟨.of_same rfl rfl rfl, ?_⟩
    simp only [updateRow]
    split <;> rfl

theorem program_keeps : (program cfg).Keeps free (fun s ↦ Covered cfg start s s.sink.cursor)
    (Assert cfg start) where
  spawn _ _ _ _ := trivial
  act p i k answer s' k' hp hk hact _ := by
    cases k with
    | findDue =>
      cases answer with
      | ok =>
        simp only [program] at hact
        split at hact
        · obtain ⟨rfl, rfl⟩ := Prod.mk.inj (Option.some.inj hact)
          refine ⟨hp.1, fun l hl ↦ ?_, fun j l _ hl ↦ hp.2 j l hl⟩
          obtain rfl := Option.some.inj hl
          exact ⟨hp.1, trivial⟩
        · obtain ⟨rfl, rfl⟩ := Prod.mk.inj (Option.some.inj hact)
          exact ⟨hp.1, fun l hl ↦ (by cases hl), fun j l _ hl ↦ hp.2 j l hl⟩
      | _ => cases hact
    | running row cursor left point =>
      obtain ⟨hc, hat⟩ := hp.2 i _ hk
      obtain ⟨hlater, -, hself⟩ := runStep_spec hc hat hact
      exact ⟨hp.1.runStep hc hat hact, hself, fun j l _ hl ↦ (hp.2 j l hl).later hlater⟩
  abort p i k hp _ := ⟨hp.1, fun j l _ hl ↦ hp.2 j l hl⟩
  env s d s' hI henv := by
    obtain ⟨hlater, hcursor⟩ := env_spec henv
    refine ⟨?_, fun _ _ hJ ↦ hJ.later hlater⟩
    rw [hcursor]
    exact hI.later hlater

/-! ## Every row is shipped -/

variable {p q : Pool Store Call} {es fs : List (Event Unit Answer Change)}

theorem cursor_le_step {e : Event Unit Answer Change}
    (hp : Program.Holds (fun s ↦ Covered cfg start s s.sink.cursor) (Assert cfg start) p)
    (hs : (program cfg).step p e = some q) (hok : Undisturbed p e q) :
    p.store.sink.cursor ≤ q.store.sink.cursor := by
  cases e with
  | spawn i a =>
    obtain ⟨-, rfl⟩ := Program.step_spawn hs
    exact le_refl _
  | act i answer =>
    obtain ⟨k, ⟨s', k'⟩, hk, hact, rfl⟩ := Program.step_act hs
    have htimely : timely p.store k answer = true := by
      simpa [Undisturbed, undisturbed, hk] using hok
    cases k with
    | findDue =>
      cases answer with
      | ok =>
        simp only [program] at hact
        split at hact
        · obtain ⟨rfl, -⟩ := Prod.mk.inj (Option.some.inj hact)
          exact le_refl _
        · obtain ⟨rfl, -⟩ := Prod.mk.inj (Option.some.inj hact)
          exact le_refl _
      | _ => cases hact
    | running row cursor left point =>
      obtain ⟨hc, hat⟩ := hp.2 i _ hk
      exact cursor_le_runStep hc hat htimely hact
  | abort i =>
    obtain ⟨k, -, rfl⟩ := Program.step_abort hs
    exact le_refl _
  | env d =>
    obtain ⟨s', henv, rfl⟩ := Program.step_env hs
    exact le_of_eq (env_spec henv).2.symm

/-- **A row the cursor is past has been delivered**, in every run whatsoever. -/
theorem run_delivered (hr : Run (program cfg).step free (Program.idle Call s) es p)
    {row : AuditLog} (hrow : row ∈ p.store.log) (howed : Owed cfg s.sink.cursor row)
    (hle : row.position ≤ p.store.sink.cursor) : row ∈ p.store.delivered :=
  (program_keeps.run (Program.holds_idle covered_start) hr).1.delivered row hrow howed hle

/-- What is promised of a sink between two moments. -/
structure Streams (cfg : Config) (start : WithBot Position) (p q : Pool Store Call) : Prop where
  monotone : p.store.sink.cursor ≤ q.store.sink.cursor
  /-- What the sink owes and the cursor is past has been delivered. -/
  delivered : ∀ row ∈ q.store.log, Owed cfg start row → row.position ≤ q.store.sink.cursor →
    row ∈ q.store.delivered

/-- **The cursor is monotone and is past nothing that has not been delivered, in every run
in which it is always moved from where the run of the sink found it.** -/
theorem run_streams (hr : Run (program cfg).step Undisturbed (Program.idle Call s) es p)
    (hr' : Run (program cfg).step Undisturbed p fs q) : Streams cfg s.sink.cursor p q := by
  have hkeeps : (program cfg).Keeps free (fun t ↦ Covered cfg s.sink.cursor t t.sink.cursor)
      (Assert cfg s.sink.cursor) := program_keeps
  have hp := hkeeps.run (Program.holds_idle covered_start) hr.forget
  refine ⟨?_, fun row hrow howed hle ↦ run_delivered (hr.trans hr').forget hrow howed hle⟩
  have key := hr'.invariant
    (I := fun t ↦ Program.Holds (fun t ↦ Covered cfg s.sink.cursor t t.sink.cursor)
      (Assert cfg s.sink.cursor) t ∧ p.store.sink.cursor ≤ t.store.sink.cursor)
    ⟨hp, le_refl _⟩
    fun t e u ht hs hok ↦
      ⟨hkeeps.step ht.1 hs trivial, le_trans ht.2 (cursor_le_step ht.1 hs hok)⟩
  exact key.2

end

def everything : Config := { orgId := "org" }

/-- A row of the log. -/
def entry (id : Id) (createdAt : Nat) (id_ne : id ≠ "" := by decide) : AuditLog where
  id
  orgId := "org"
  action := "user.login"
  resourceType := "User"
  createdAt
  id_ne
  createdAt_nonneg := Int.natCast_nonneg createdAt

def eleven : Store where
  now := 10000
  log := ⟨[entry "a" 1, entry "b" 2, entry "c" 3, entry "d" 4, entry "e" 5, entry "f" 6,
    entry "g" 7, entry "h" 8, entry "i" 9, entry "j" 10, entry "k" 11], by decide⟩
  sink := { batchSize := 10, cursor := ((toLex (0, "") : Position) : WithBot Position) }

/-- So many steps of the run in slot `i`, all of which go well. -/
def goesWell (i n : Nat) : List (Event Unit Answer Change) := List.replicate n (.act i .ok)

def refused : List (Event Unit Answer Change) :=
  .spawn 0 () :: goesWell 0 4 ++ .act 0 (.failed false none) :: goesWell 0 2

def retried : List (Event Unit Answer Change) :=
  .env (.tick 40000) :: .spawn 0 () :: goesWell 0 12

theorem run_streams_eleven : ∃ p q : Pool Store Call, Streams everything eleven.sink.cursor p q ∧
    p.store.delivered = [] ∧ q.store.delivered.length = 11 := by
  obtain ⟨p, hp⟩ : ∃ p, execIf (program everything).step undisturbed
      (Program.idle Call eleven) refused = some p := ⟨_, rfl⟩
  obtain ⟨q, hq⟩ : ∃ q, execIf (program everything).step undisturbed p retried = some q := by
    obtain rfl := Option.some.inj hp
    exact ⟨_, rfl⟩
  refine ⟨p, q, run_streams (run_of_execIf hp) (run_of_execIf hq), ?_⟩
  obtain rfl := Option.some.inj hp
  obtain rfl := Option.some.inj hq
  exact ⟨rfl, rfl⟩

/-- One pass reads the row of the sink.  Before its turn comes, another ships all there
is, and ends. -/
def overtaken : List (Event Unit Answer Change) :=
  .spawn 0 () :: .act 0 .ok :: .spawn 1 () :: goesWell 1 12

def takesBack : List (Event Unit Answer Change) := goesWell 0 5

/-- The cursor goes back to the end of that batch. -/
theorem cursor_taken_back : ∃ p q : Pool Store Call,
    Run (program everything).step free (Program.idle Call eleven) overtaken p ∧
      Run (program everything).step free p takesBack q ∧ p.calls 1 = none ∧
      p.store.sink.cursor = (entry "k" 11).position ∧
      q.store.sink.cursor = (entry "j" 10).position ∧
      ¬ Streams everything eleven.sink.cursor p q := by
  obtain ⟨p, hp⟩ : ∃ p, exec (program everything).step (Program.idle Call eleven) overtaken =
      some p := ⟨_, rfl⟩
  obtain ⟨q, hq⟩ : ∃ q, exec (program everything).step p takesBack = some q := by
    obtain rfl := Option.some.inj hp
    exact ⟨_, rfl⟩
  have hruns := And.intro (run_of_exec hp) (run_of_exec hq)
  obtain rfl := Option.some.inj hp
  obtain rfl := Option.some.inj hq
  refine ⟨_, _, hruns.1, hruns.2, rfl, rfl, rfl, fun hstreams ↦ ?_⟩
  exact absurd hstreams.monotone (by decide)

end Shellius.Audit.Sink
