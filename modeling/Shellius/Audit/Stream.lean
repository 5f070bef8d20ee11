import Mathlib.Algebra.GroupWithZero.Nat
import Mathlib.Data.Int.ConditionallyCompleteOrder
import Mathlib.Data.String.Basic
import Mathlib.Order.ConditionallyCompleteLattice.Basic
import Shellius.Lib.Keyed
import Shellius.Lib.Keyset
import Shellius.Schema

/-!
# The reader of the audit log

`auditService.stream`, which goes through the log of an organization in the order
of `(createdAt, id)`.  It stays `READ_LAG_MS` behind the clock, or reads up to a
given instant: a row has its `createdAt` before it can be seen, so whoever reads
up to the present may pass a row that is still on its way.

What makes the cursor safe is `position_lt`: where the reader has come is before
every row that is yet to appear.
-/

namespace Shellius.Audit

open Lib

structure AuditLog where
  id : Id
  orgId : Id
  action : String
  resourceType : String
  createdAt : Int
  id_ne : id ≠ "" := by decide
  createdAt_nonneg : 0 ≤ createdAt := by decide
deriving DecidableEq

/-- A place in the log: an instant, and a key among the rows of that instant. -/
abbrev Position := Int ×ₗ Id

/-- The instant of a place. -/
def Position.createdAt (p : Position) : Int := (ofLex p).1

/-- `{ createdAt, id }` of a row. -/
def AuditLog.position (row : AuditLog) : Position := toLex (row.createdAt, row.id)

/-- The log, as far as it can be seen. -/
abbrev Log := Keyed AuditLog.id

/-- What to read; an empty list stands for everything. -/
structure Filters where
  actions : List String := []
  resourceTypes : List String := []

def passes (orgId : Id) (filters : Filters) (row : AuditLog) : Bool :=
  row.orgId = orgId ∧ (filters.actions = [] ∨ row.action ∈ filters.actions) ∧
    (filters.resourceTypes = [] ∨ row.resourceType ∈ filters.resourceTypes)

/-- The rows that pass, up to an instant. -/
def upTo (log : Log) (orgId : Id) (filters : Filters) (ceiling : Int) : List AuditLog :=
  log.rows.filter fun row ↦ passes orgId filters row ∧ row.createdAt ≤ ceiling

/-- The query of `stream`: the next batch of rows after a cursor. -/
def nextBatch (log : Log) (orgId : Id) (filters : Filters) (ceiling : Int) (batchSize : Nat)
    (cursor : WithBot Position) : List AuditLog :=
  page AuditLog.position batchSize cursor (upTo log orgId filters ceiling)

/-- All batches of `stream`. -/
def stream (log : Log) (orgId : Id) (filters : Filters) (ceiling : Int) (batchSize : Nat)
    (cursor : WithBot Position) : List (List AuditLog) :=
  pages AuditLog.position batchSize (upTo log orgId filters ceiling) (log.rows.length + 1) cursor

variable {log : Log} {orgId : Id} {filters : Filters} {ceiling lag now : Int} {batchSize : Nat}
  {cursor : WithBot Position} {row : AuditLog} {p : Position}

@[simp] theorem createdAt_position : row.position.createdAt = row.createdAt := rfl

@[simp] theorem mem_upTo : row ∈ upTo log orgId filters ceiling ↔
    row ∈ log ∧ passes orgId filters row = true ∧ row.createdAt ≤ ceiling := by
  simp [upTo, Keyed.mem_def]

theorem nodup_position : ((upTo log orgId filters ceiling).map AuditLog.position).Nodup := by
  have hids : ((upTo log orgId filters ceiling).map AuditLog.id).Nodup :=
    log.nodup.sublist (List.filter_sublist.map _)
  have hsame : (upTo log orgId filters ceiling).map AuditLog.id =
      ((upTo log orgId filters ceiling).map AuditLog.position).map fun p ↦ (ofLex p).2 := by
    rw [List.map_map]
    rfl
  exact List.Nodup.of_map _ (hsame ▸ hids)

theorem flatten_stream (h : 0 < batchSize) :
    (stream log orgId filters ceiling batchSize cursor).flatten =
      above AuditLog.position cursor (upTo log orgId filters ceiling) := by
  refine flatten_pages h nodup_position (Nat.lt_succ_of_le ?_)
  calc (above AuditLog.position cursor (upTo log orgId filters ceiling)).length
      = (List.filter _ (upTo log orgId filters ceiling)).length := List.length_insertionSort _ _
    _ ≤ (upTo log orgId filters ceiling).length := List.length_filter_le _ _
    _ ≤ log.rows.length := List.length_filter_le _ _

theorem position_lt_iff {q : Position} :
    q < row.position ↔ q.createdAt < row.createdAt ∨ q.createdAt = row.createdAt ∧
      (ofLex q).2 < row.id := Prod.Lex.lt_iff

theorem createdAt_le (h : p ≤ row.position) : p.createdAt ≤ row.createdAt := by
  rcases lt_or_eq_of_le h with hlt | rfl
  · rcases position_lt_iff.mp hlt with hlt | ⟨heq, -⟩
    · exact Int.le_of_lt hlt
    · exact Int.le_of_eq heq
  · exact Int.le_refl _

theorem empty_lt_id : "" < row.id := by
  rw [String.lt_iff_toList_lt]
  cases hid : row.id.toList with
  | nil => exact absurd (String.toList_eq_nil_iff.mp hid) row.id_ne
  | cons c cs => exact List.nil_lt_cons c cs

theorem toLex_empty_lt {t : Int} : (toLex (t, "") : Position) < row.position ↔
    t ≤ row.createdAt := by
  rw [position_lt_iff]
  constructor
  · rintro (hlt | ⟨heq, -⟩)
    · exact Int.le_of_lt hlt
    · exact Int.le_of_eq heq
  · intro hle
    rcases Int.lt_or_eq_of_le hle with hlt | heq
    · exact .inl hlt
    · exact .inr ⟨heq, empty_lt_id⟩

theorem position_lt (hp : p.createdAt + lag ≤ now) (h : now < row.createdAt + lag) :
    p < row.position := by
  have hlt : p.createdAt + lag < row.createdAt + lag := Int.lt_of_le_of_lt hp h
  exact position_lt_iff.mpr (.inl (Int.lt_of_add_lt_add_right hlt))

end Shellius.Audit
