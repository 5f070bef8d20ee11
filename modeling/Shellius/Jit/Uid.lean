import Mathlib.Data.List.MinMax
import Shellius.Lib.Pool
import Shellius.Lib.Table
import Shellius.Schema

/-!
# JIT UIDs

`jitUidService` gives every user of an organization a Linux UID of its own: one
more than the largest UID that any row still holds, read and written under an
advisory lock.

The calls of `getOrAllocateUid` run as a pool over the users of one
organization, each database step on its own, while users come and go.  The
invariant has one conjunct for the lock: whoever computes the next UID holds it,
and nobody else writes a UID meanwhile.
-/

namespace Shellius.JitUid

open Lib

/-- `MIN_UID` -/
def minUid : Nat := 70000

/-- `MAX_UID` -/
def maxUid : Nat := 79999

/-- One more than the largest UID of the organization. -/
def nextUid (orgId : Id) (users : List User) : Nat :=
  ((users.filter fun u ↦ u.orgId = orgId).filterMap User.jitUid).max?.getD (minUid - 1) + 1

/-- Another row of the organization holds the UID. -/
def taken (orgId : Id) (users : List User) (userId : Id) (uid : Nat) : Bool :=
  users.any fun u ↦ u.orgId = orgId ∧ u.id ≠ userId ∧ u.jitUid = some uid

def setUid (uid : Nat) (u : User) : User := { u with jitUid := some uid }

/-- How a call of `getOrAllocateUid` ends. -/
inductive Outcome
  | handed (userId : Id) (uid : Nat)
  | /-- `USER_NOT_FOUND`, or the update finds no row. -/
    notFound (userId : Id)
  | /-- `JIT_UID_RANGE_EXHAUSTED` -/
    exhausted (userId : Id)
  | /-- `Computed UID … below minimum …` -/
    belowMinimum (userId : Id)
  | conflict (userId : Id)
deriving DecidableEq

/-- The users of one organization, with the advisory lock of its allocator. -/
structure Store where
  orgId : Id
  users : List User
  lock : Option Nat := none
  known : List Id := users.map User.id
  /-- How the calls so far ended, the last one first. -/
  log : List Outcome := []

inductive Call
  | read (userId : Id)
  | lock (userId : Id)
  | reRead (userId : Id)
  | aggregate (userId : Id)
  | update (userId : Id) (next : Nat)

inductive Change
  | createUser (userId : Id)
  | /-- `deleteUser` -/
    deleteUser (userId : Id)
  | /-- `softDeleteSelf` -/
    softDeleteSelf (userId : Id) (now : Millis)

namespace Store

/-- The call ends with an outcome. -/
def report (s : Store) (o : Outcome) : Store := { s with log := o :: s.log }

/-- The transaction ends. -/
def unlock (s : Store) : Store := { s with lock := none }

end Store

/-- `getOrAllocateUid` with nothing else going on: how it ends, and the rows
afterwards. -/
def getOrAllocateUid (orgId : Id) (users : List User) (userId : Id) : Outcome × List User :=
  match lookup User.id userId users with
  | none => (.notFound userId, users)
  | some existing =>
    match existing.jitUid with
    | some uid => (.handed userId uid, users)
    | none =>
      let next := nextUid orgId users
      if next > maxUid then (.exhausted userId, users)
      else if next < minUid then (.belowMinimum userId, users)
      else if taken orgId users userId next then (.conflict userId, users)
      else (.handed userId next, modify User.id userId (setUid next) users)

/-- One database step of `getOrAllocateUid`. -/
def act (i : Nat) (s : Store) : Call → Unit → Option (Store × Option Call)
  | .read userId, _ =>
    match lookup User.id userId s.users with
    | none => some (s.report (.notFound userId), none)
    | some existing =>
      match existing.jitUid with
      | some uid => some (s.report (.handed userId uid), none)
      | none => some (s, some (.lock userId))
  | .lock userId, _ =>
    if s.lock = none then some ({ s with lock := some i }, some (.reRead userId)) else none
  | .reRead userId, _ =>
    match (lookup User.id userId s.users).bind User.jitUid with
    | some uid => some (s.unlock.report (.handed userId uid), none)
    | none => some (s, some (.aggregate userId))
  | .aggregate userId, _ =>
    let next := nextUid s.orgId s.users
    if next > maxUid then some (s.unlock.report (.exhausted userId), none)
    else if next < minUid then some (s.unlock.report (.belowMinimum userId), none)
    else some (s, some (.update userId next))
  | .update userId next, _ =>
    match lookup User.id userId s.users with
    | none => some (s.unlock.report (.notFound userId), none)
    | some _ =>
      if taken s.orgId s.users userId next then some (s.unlock.report (.conflict userId), none)
      else
        some ({ s.unlock with users := modify User.id userId (setUid next) s.users }.report
          (.handed userId next), none)

/-- What the changes do.  A new user has a new id; deleting one removes the row,
and deleting oneself only marks it. -/
def change (s : Store) : Change → Option Store
  | .createUser userId =>
    if userId ∈ s.known then none
    else
      some { s with
        users := s.users ++ [{ id := userId, orgId := s.orgId }]
        known := userId :: s.known }
  | .deleteUser userId => some { s with users := s.users.filter fun u ↦ u.id ≠ userId }
  | .softDeleteSelf userId now =>
    some { s with
      users := modify User.id userId
        (fun u ↦ { u with status := .deleted, deletedAt := some now }) s.users }

/-- The allocator: calls by user id, a dying call rolls its transaction back. -/
def program : Program Store Id Call Unit Change where
  start := .read
  act
  abort i s _ := if s.lock = some i then s.unlock else s
  env := change

/-! ## The invariant -/

structure Inv (s : Store) : Prop where
  /-- `id` is a primary key. -/
  key : (s.users.map User.id).Nodup
  org : ∀ u ∈ s.users, u.orgId = s.orgId
  range : ∀ u ∈ s.users, ∀ uid, u.jitUid = some uid → minUid ≤ uid ∧ uid ≤ maxUid
  distinct : ∀ u ∈ s.users, ∀ v ∈ s.users, ∀ uid, u.jitUid = some uid → v.jitUid = some uid →
    u.id = v.id
  known : ∀ u ∈ s.users, u.id ∈ s.known
  /-- Whoever was handed a UID was a user then, and keeps the UID while the row
  is there. -/
  handed : ∀ userId uid, .handed userId uid ∈ s.log → userId ∈ s.known ∧
    (minUid ≤ uid ∧ uid ≤ maxUid) ∧ ∀ u ∈ s.users, u.id = userId → u.jitUid = some uid
  /-- Whoever was handed a UID twice was handed the same one. -/
  stable : ∀ userId uid uid', .handed userId uid ∈ s.log → .handed userId uid' ∈ s.log → uid = uid'

/-- What holds of a call in flight: under the lock, the user still has no UID,
and the UID to be written is above all others. -/
def Assert (s : Store) (i : Nat) : Call → Prop
  | .read _ | .lock _ => True
  | .reRead _ => s.lock = some i
  | .aggregate userId => s.lock = some i ∧ ∀ u ∈ s.users, u.id = userId → u.jitUid = none
  | .update userId next => s.lock = some i ∧ (∀ u ∈ s.users, u.id = userId → u.jitUid = none) ∧
      (minUid ≤ next ∧ next ≤ maxUid) ∧ ∀ u ∈ s.users, ∀ uid, u.jitUid = some uid → uid < next

structure Initial (s : Store) : Prop where
  key : (s.users.map User.id).Nodup
  org : ∀ u ∈ s.users, u.orgId = s.orgId
  range : ∀ u ∈ s.users, ∀ uid, u.jitUid = some uid → minUid ≤ uid ∧ uid ≤ maxUid
  distinct : ∀ u ∈ s.users, ∀ v ∈ s.users, ∀ uid, u.jitUid = some uid → v.jitUid = some uid →
    u.id = v.id
  known : ∀ u ∈ s.users, u.id ∈ s.known
  log : s.log = []

variable {s s' : Store} {i j : Nat} {k l : Call} {userId : Id} {uid : Nat} {u : User}

theorem Initial.inv (h : Initial s) : Inv s where
  key := h.key
  org := h.org
  range := h.range
  distinct := h.distinct
  known := h.known
  handed := by simp [h.log]
  stable := by simp [h.log]

theorem lt_nextUid_of_mem {orgId : Id} {users : List User} (hu : u ∈ users) (ho : u.orgId = orgId)
    (huid : u.jitUid = some uid) : uid < nextUid orgId users := by
  have hmem : uid ∈ (users.filter fun u ↦ u.orgId = orgId).filterMap User.jitUid :=
    List.mem_filterMap.mpr ⟨u, by simpa using ⟨hu, ho⟩, huid⟩
  rw [nextUid]
  cases hm : ((users.filter fun u ↦ u.orgId = orgId).filterMap User.jitUid).max? with
  | none => rw [List.max?_eq_none_iff.mp hm] at hmem; simp at hmem
  | some m =>
    have := (List.max?_eq_some_iff.mp hm).2 uid hmem
    simpa using Nat.lt_succ_of_le this

theorem lt_nextUid (h : Inv s) (hu : u ∈ s.users) (huid : u.jitUid = some uid) :
    uid < nextUid s.orgId s.users := lt_nextUid_of_mem hu (h.org u hu) huid

theorem nextUid_eq (s : Store) :
    nextUid s.orgId s.users = minUid ∨
      ∃ u ∈ s.users, ∃ uid, u.jitUid = some uid ∧ nextUid s.orgId s.users = uid + 1 := by
  rw [nextUid]
  cases hm : ((s.users.filter fun u ↦ u.orgId = s.orgId).filterMap User.jitUid).max? with
  | none => exact .inl rfl
  | some m =>
    obtain ⟨u, hu, hj⟩ := List.mem_filterMap.mp (List.max?_eq_some_iff.mp hm).1
    exact .inr ⟨u, List.mem_of_mem_filter hu, m, hj, rfl⟩

/-! ### Changes that keep it -/

theorem Inv.unlock (h : Inv s) : Inv s.unlock := ⟨h.1, h.2, h.3, h.4, h.5, h.6, h.7⟩

theorem Inv.report_handed (h : Inv s) (hu : u ∈ s.users) (huid : u.jitUid = some uid) :
    Inv (s.report (.handed u.id uid)) where
  key := h.key
  org := h.org
  range := h.range
  distinct := h.distinct
  known := h.known
  handed v x hx := by
    rcases List.mem_cons.mp hx with he | hx
    · obtain ⟨rfl, rfl⟩ := Outcome.handed.inj he
      refine ⟨h.known u hu, h.range u hu _ huid, fun w hw hid ↦ ?_⟩
      rw [List.inj_on_of_nodup_map h.key hw hu hid, huid]
    · exact h.handed v x hx
  stable v x y hx hy := by
    have key : ∀ z, Outcome.handed u.id z ∈ s.log → z = uid := fun z hz ↦
      Option.some.inj (((h.handed _ _ hz).2.2 u hu rfl).symm.trans huid)
    rcases List.mem_cons.mp hx with hx' | hx' <;> rcases List.mem_cons.mp hy with hy' | hy'
    · obtain ⟨rfl, rfl⟩ := Outcome.handed.inj hx'
      exact (Outcome.handed.inj hy').2.symm
    · obtain ⟨rfl, rfl⟩ := Outcome.handed.inj hx'
      exact (key y hy').symm
    · obtain ⟨rfl, rfl⟩ := Outcome.handed.inj hy'
      exact key x hx'
    · exact h.stable v x y hx' hy'

theorem Inv.report_failed (h : Inv s) {o : Outcome} (ho : ∀ v x, o ≠ .handed v x) :
    Inv (s.report o) := by
  have hlog : ∀ v x, .handed v x ∈ (s.report o).log → .handed v x ∈ s.log := fun v x hx ↦
    (List.mem_cons.mp hx).resolve_left fun he ↦ ho v x he.symm
  exact ⟨h.key, h.org, h.range, h.distinct, h.known, fun v x hx ↦ h.handed v x (hlog v x hx),
    fun v x y hx hy ↦ h.stable v x y (hlog v x hx) (hlog v y hy)⟩

theorem Inv.setUid (h : Inv s) {next : Nat} (hr : minUid ≤ next ∧ next ≤ maxUid)
    (hnone : ∀ u ∈ s.users, u.id = userId → u.jitUid = none)
    (hlt : ∀ u ∈ s.users, ∀ uid, u.jitUid = some uid → uid < next) :
    Inv { s with users := modify User.id userId (setUid next) s.users } where
  key := by
    rw [map_modify]
    · exact h.key
    · exact fun _ _ _ ↦ rfl
  org := forall_modify h.org fun u hu _ ↦ h.org u hu
  range := forall_modify h.range fun _ _ _ uid hx ↦ Option.some.inj hx ▸ hr
  distinct u hu v hv x hx hy := by
    rcases mem_modify.mp hu with ⟨hu, -⟩ | ⟨u, hu, hid, rfl⟩ <;>
      rcases mem_modify.mp hv with ⟨hv, -⟩ | ⟨v, hv, hid', rfl⟩
    · exact h.distinct u hu v hv x hx hy
    · obtain rfl : next = x := Option.some.inj hy
      exact absurd (hlt u hu next hx) (lt_irrefl _)
    · obtain rfl : next = x := Option.some.inj hx
      exact absurd (hlt v hv next hy) (lt_irrefl _)
    · exact hid.trans hid'.symm
  known := forall_modify h.known fun u hu _ ↦ h.known u hu
  handed v x hx := by
    obtain ⟨hk, hr', hrow⟩ := h.handed v x hx
    exact ⟨hk, hr', forall_modify hrow fun u hu hid hv ↦
      absurd (hrow u hu hv) (by simp [hnone u hu hid])⟩
  stable := h.stable

theorem Inv.createUser (h : Inv s) (hfresh : userId ∉ s.known) :
    Inv { s with
      users := s.users ++ [{ id := userId, orgId := s.orgId }]
      known := userId :: s.known } where
  key := by
    rw [List.map_append, List.nodup_append]
    refine ⟨h.key, by simp, fun x hx y hy hxy ↦ ?_⟩
    obtain ⟨u, hu, rfl⟩ := List.mem_map.mp hx
    obtain rfl : y = userId := by simpa using hy
    exact hfresh (hxy ▸ h.known u hu)
  org u hu := by
    rcases List.mem_append.mp hu with hu | hu
    · exact h.org u hu
    · rw [List.mem_singleton.mp hu]
  range u hu x hx := by
    rcases List.mem_append.mp hu with hu | hu
    · exact h.range u hu x hx
    · simp [List.mem_singleton.mp hu] at hx
  distinct u hu v hv x hx hy := by
    rcases List.mem_append.mp hu with hu | hu
    · rcases List.mem_append.mp hv with hv | hv
      · exact h.distinct u hu v hv x hx hy
      · simp [List.mem_singleton.mp hv] at hy
    · simp [List.mem_singleton.mp hu] at hx
  known u hu := by
    rcases List.mem_append.mp hu with hu | hu
    · exact List.mem_cons_of_mem _ (h.known u hu)
    · rw [List.mem_singleton.mp hu]; exact List.mem_cons_self
  handed v x hx := by
    obtain ⟨hk, hr, hrow⟩ := h.handed v x hx
    refine ⟨List.mem_cons_of_mem _ hk, hr, fun u hu hid ↦ ?_⟩
    rcases List.mem_append.mp hu with hu | hu
    · exact hrow u hu hid
    · obtain rfl : userId = v := by simpa [List.mem_singleton.mp hu] using hid
      exact absurd hk hfresh
  stable := h.stable

theorem Inv.deleteUser (h : Inv s) :
    Inv { s with users := s.users.filter fun u ↦ u.id ≠ userId } where
  key := (List.filter_sublist.map User.id).nodup h.key
  org u hu := h.org u (List.mem_of_mem_filter hu)
  range u hu := h.range u (List.mem_of_mem_filter hu)
  distinct u hu v hv := h.distinct u (List.mem_of_mem_filter hu) v (List.mem_of_mem_filter hv)
  known u hu := h.known u (List.mem_of_mem_filter hu)
  handed v x hx := by
    obtain ⟨hk, hr, hrow⟩ := h.handed v x hx
    exact ⟨hk, hr, fun u hu ↦ hrow u (List.mem_of_mem_filter hu)⟩
  stable := h.stable

theorem Inv.modify (h : Inv s) {f : User → User}
    (hf : ∀ u, (f u).id = u.id ∧ (f u).orgId = u.orgId ∧ (f u).jitUid = u.jitUid) :
    Inv { s with users := Lib.modify User.id userId f s.users } := by
  have hmem : ∀ u ∈ Lib.modify User.id userId f s.users,
      ∃ v ∈ s.users, v.id = u.id ∧ v.orgId = u.orgId ∧ v.jitUid = u.jitUid := fun u hu ↦ by
    rcases mem_modify.mp hu with ⟨hu, -⟩ | ⟨v, hv, -, rfl⟩
    · exact ⟨u, hu, rfl, rfl, rfl⟩
    · exact ⟨v, hv, (hf v).1.symm, (hf v).2.1.symm, (hf v).2.2.symm⟩
  refine ⟨?_, fun u hu ↦ ?_, fun u hu ↦ ?_, fun u hu v hv ↦ ?_, fun u hu ↦ ?_, fun v x hx ↦ ?_,
    h.stable⟩
  · rw [map_modify]
    · exact h.key
    · exact fun u _ _ ↦ (hf u).1
  · obtain ⟨u', hu', -, ho, -⟩ := hmem u hu
    exact ho ▸ h.org u' hu'
  · obtain ⟨u', hu', -, -, hj⟩ := hmem u hu
    exact hj ▸ h.range u' hu'
  · obtain ⟨u', hu', hid, -, hj⟩ := hmem u hu
    obtain ⟨v', hv', hid', -, hj'⟩ := hmem v hv
    rw [← hid, ← hid', ← hj, ← hj']
    exact h.distinct u' hu' v' hv'
  · obtain ⟨u', hu', hid, -, -⟩ := hmem u hu
    exact hid ▸ h.known u' hu'
  · obtain ⟨hk, hr, hrow⟩ := h.handed v x hx
    refine ⟨hk, hr, fun u hu ↦ ?_⟩
    obtain ⟨u', hu', hid, -, hj⟩ := hmem u hu
    rw [← hid, ← hj]
    exact hrow u' hu'

/-! ### One step of a call -/

/-- When an outcome is justified, given the store it was computed in: a UID
handed out is the user's own or above all that rows hold, and a call fails only
because its user is gone or because a row holds the last UID. -/
def Justified (s : Store) : Outcome → Prop
  | .handed userId uid => ∃ u ∈ s.users, u.id = userId ∧
      (u.jitUid = some uid ∨
        u.jitUid = none ∧ ∀ v ∈ s.users, ∀ uid', v.jitUid = some uid' → uid' < uid)
  | .notFound userId => ∀ u ∈ s.users, u.id ≠ userId
  | .exhausted _ => ∃ u ∈ s.users, u.jitUid = some maxUid
  | .belowMinimum _ | .conflict _ => False

theorem Assert.of_ne_holder (h : Assert s j l) (hl : s.lock ≠ some j) : Assert s' j l := by
  cases l with
  | read | lock => trivial
  | reRead => exact absurd h hl
  | aggregate => exact absurd h.1 hl
  | update => exact absurd h.1 hl

/-- What one database step does: it keeps the invariant, establishes what the
call asserts next, touches lock and rows only while nobody else holds the lock,
and ends the call with a justified outcome only. -/
theorem act_spec {k' : Option Call} (h : Inv s) (ha : Assert s i k)
    (hact : act i s k () = some (s', k')) :
    Inv s' ∧ (∀ l, k' = some l → Assert s' i l) ∧
      ((s'.lock = s.lock ∧ s'.users = s.users) ∨ s.lock = none ∨ s.lock = some i) ∧
      ∀ o, s'.log = o :: s.log → Justified s o := by
  cases k with
  | read userId =>
    simp only [act] at hact
    cases hrow : lookup User.id userId s.users with
    | none =>
      simp only [hrow, Option.some.injEq, Prod.mk.injEq] at hact
      obtain ⟨rfl, rfl⟩ := hact
      refine ⟨h.report_failed (by simp), by simp, .inl ⟨rfl, rfl⟩, fun o ho ↦ ?_⟩
      obtain rfl := (List.cons.inj ho).1
      exact lookup_eq_none.mp hrow
    | some u =>
      obtain ⟨hu, rfl⟩ := lookup_spec hrow
      cases huid : u.jitUid with
      | none =>
        simp only [hrow, huid, Option.some.injEq, Prod.mk.injEq] at hact
        obtain ⟨rfl, rfl⟩ := hact
        exact ⟨h, by simp [Assert], .inl ⟨rfl, rfl⟩, by simp⟩
      | some uid =>
        simp only [hrow, huid, Option.some.injEq, Prod.mk.injEq] at hact
        obtain ⟨rfl, rfl⟩ := hact
        refine ⟨h.report_handed hu huid, by simp, .inl ⟨rfl, rfl⟩, fun o ho ↦ ?_⟩
        obtain rfl := (List.cons.inj ho).1
        exact ⟨u, hu, rfl, .inl huid⟩
  | lock userId =>
    simp only [act] at hact
    split at hact
    · rename_i hl
      simp only [Option.some.injEq, Prod.mk.injEq] at hact
      obtain ⟨rfl, rfl⟩ := hact
      exact ⟨⟨h.1, h.2, h.3, h.4, h.5, h.6, h.7⟩, by simp [Assert], .inr (.inl hl), by simp⟩
    · cases hact
  | reRead userId =>
    simp only [act] at hact
    cases huid : (lookup User.id userId s.users).bind User.jitUid with
    | some uid =>
      simp only [huid, Option.some.injEq, Prod.mk.injEq] at hact
      obtain ⟨rfl, rfl⟩ := hact
      obtain ⟨u, hrow, hj⟩ := Option.bind_eq_some_iff.mp huid
      obtain ⟨hu, rfl⟩ := lookup_spec hrow
      refine ⟨h.unlock.report_handed hu hj, by simp, .inr (.inr ha), fun o ho ↦ ?_⟩
      obtain rfl := (List.cons.inj ho).1
      exact ⟨u, hu, rfl, .inl hj⟩
    | none =>
      simp only [huid, Option.some.injEq, Prod.mk.injEq] at hact
      obtain ⟨rfl, rfl⟩ := hact
      refine ⟨h, fun l hl ↦ ?_, .inr (.inr ha), by simp⟩
      obtain rfl := Option.some.inj hl
      refine ⟨ha, fun u hu hid ↦ ?_⟩
      subst hid
      simpa [lookup_of_mem h.key hu] using huid
  | aggregate userId =>
    obtain ⟨hlock, hnone⟩ := ha
    simp only [act] at hact
    split at hact
    · rename_i hmax
      simp only [Option.some.injEq, Prod.mk.injEq] at hact
      obtain ⟨rfl, rfl⟩ := hact
      refine ⟨h.unlock.report_failed (by simp), by simp, .inr (.inr hlock), fun o ho ↦ ?_⟩
      obtain rfl := (List.cons.inj ho).1
      rcases nextUid_eq s with hn | ⟨u, hu, uid, huid, hn⟩
      · simp [hn, minUid, maxUid] at hmax
      · have hle := (h.range u hu uid huid).2
        obtain rfl : uid = maxUid := by omega
        exact ⟨u, hu, huid⟩
    · rename_i hmax
      have hmin : minUid ≤ nextUid s.orgId s.users := by
        rcases nextUid_eq s with hn | ⟨u, hu, uid, huid, hn⟩
        · exact hn.ge
        · have := (h.range u hu uid huid).1
          omega
      rw [if_neg (not_lt.mpr hmin)] at hact
      simp only [Option.some.injEq, Prod.mk.injEq] at hact
      obtain ⟨rfl, rfl⟩ := hact
      refine ⟨h, fun l hl ↦ ?_, .inr (.inr hlock), by simp⟩
      obtain rfl := Option.some.inj hl
      exact ⟨hlock, hnone, ⟨hmin, not_lt.mp hmax⟩, fun u hu uid huid ↦ lt_nextUid h hu huid⟩
  | update userId next =>
    obtain ⟨hlock, hnone, hrange, hlt⟩ := ha
    simp only [act] at hact
    cases hrow : lookup User.id userId s.users with
    | none =>
      simp only [hrow, Option.some.injEq, Prod.mk.injEq] at hact
      obtain ⟨rfl, rfl⟩ := hact
      refine ⟨h.unlock.report_failed (by simp), by simp, .inr (.inr hlock), fun o ho ↦ ?_⟩
      obtain rfl := (List.cons.inj ho).1
      exact lookup_eq_none.mp hrow
    | some u =>
      obtain ⟨hu, rfl⟩ := lookup_spec hrow
      -- the unique constraint never bites: `next` is above every UID
      have hfree : taken s.orgId s.users u.id next = false := by
        simp only [taken, List.any_eq_false, decide_eq_true_eq]
        exact fun v hv hv' ↦ absurd (hlt v hv next hv'.2.2) (lt_irrefl _)
      simp only [hrow, hfree, Bool.false_eq_true, if_false, Option.some.injEq,
        Prod.mk.injEq] at hact
      obtain ⟨rfl, rfl⟩ := hact
      have hset : Inv { s.unlock with
          users := modify User.id u.id (setUid next) s.users } :=
        h.unlock.setUid hrange hnone hlt
      refine ⟨hset.report_handed (u := setUid next u)
        (mem_modify.mpr (.inr ⟨u, hu, rfl, rfl⟩)) rfl, by simp, .inr (.inr hlock),
        fun o ho ↦ ?_⟩
      obtain rfl := (List.cons.inj ho).1
      exact ⟨u, hu, rfl, .inr ⟨hnone u hu rfl, hlt⟩⟩

/-! ### Whole runs -/

theorem Assert.frame (h : Assert s j l) (hij : j ≠ i)
    (hlock : (s'.lock = s.lock ∧ s'.users = s.users) ∨ s.lock = none ∨ s.lock = some i) :
    Assert s' j l := by
  rcases hlock with ⟨hl, hu⟩ | hl | hl
  · cases l <;> simp only [Assert, hl, hu] <;> exact h
  · exact h.of_ne_holder (by simp [hl])
  · exact h.of_ne_holder (by simpa [hl] using hij.symm)

theorem Assert.change (h : Assert s j l) (hlock : s'.lock = s.lock)
    (hu : ∀ u ∈ s'.users, u.jitUid = none ∨ ∃ v ∈ s.users, v.id = u.id ∧ v.jitUid = u.jitUid) :
    Assert s' j l := by
  have hnone : ∀ userId, (∀ v ∈ s.users, v.id = userId → v.jitUid = none) →
      ∀ u ∈ s'.users, u.id = userId → u.jitUid = none := fun userId hv u hu' hid ↦ by
    rcases hu u hu' with hj | ⟨v, hv', hid', hj⟩
    · exact hj
    · exact hj ▸ hv v hv' (hid'.trans hid)
  cases l with
  | read | lock => trivial
  | reRead => exact hlock.trans h
  | aggregate => exact ⟨hlock.trans h.1, hnone _ h.2⟩
  | update =>
    refine ⟨hlock.trans h.1, hnone _ h.2.1, h.2.2.1, fun u hu' uid huid ↦ ?_⟩
    rcases hu u hu' with hj | ⟨v, hv, -, hj⟩
    · simp [hj] at huid
    · exact h.2.2.2 v hv uid (hj.trans huid)

theorem change_spec {d : Change} (h : Inv s) (hd : change s d = some s') :
    Inv s' ∧ ∀ j l, Assert s j l → Assert s' j l := by
  cases d with
  | createUser userId =>
    simp only [change] at hd
    split at hd
    · cases hd
    · rename_i hfresh
      obtain rfl := Option.some.inj hd
      refine ⟨h.createUser hfresh, fun j l hj ↦ hj.change rfl fun u hu ↦ ?_⟩
      rcases List.mem_append.mp hu with hu | hu
      · exact .inr ⟨u, hu, rfl, rfl⟩
      · rw [List.mem_singleton.mp hu]; exact .inl rfl
  | deleteUser userId =>
    obtain rfl := Option.some.inj hd
    exact ⟨h.deleteUser, fun j l hj ↦ hj.change rfl fun u hu ↦
      .inr ⟨u, List.mem_of_mem_filter hu, rfl, rfl⟩⟩
  | softDeleteSelf userId now =>
    obtain rfl := Option.some.inj hd
    refine ⟨h.modify fun _ ↦ ⟨rfl, rfl, rfl⟩, fun j l hj ↦ hj.change rfl fun u hu ↦ ?_⟩
    rcases mem_modify.mp hu with ⟨hu, -⟩ | ⟨v, hv, -, rfl⟩
    · exact .inr ⟨u, hu, rfl, rfl⟩
    · exact .inr ⟨v, hv, rfl, rfl⟩

theorem program_keeps : program.Keeps free Inv Assert where
  spawn _ _ _ _ := trivial
  act p i k e s' k' hp hk hact _ := by
    obtain ⟨hI, hA, hlock, -⟩ := act_spec hp.1 (hp.2 i k hk) hact
    exact ⟨hI, hA, fun j l hij hj ↦ (hp.2 j l hj).frame hij hlock⟩
  abort p i k hp hk := by
    simp only [program]
    split
    · rename_i hl
      exact ⟨hp.1.unlock, fun j l hij hj ↦ (hp.2 j l hj).frame hij (.inr (.inr hl))⟩
    · exact ⟨hp.1, fun j l _ hj ↦ hp.2 j l hj⟩
  env s d s' h hd := change_spec h hd

/-- What the allocator promises of the UIDs handed out so far. -/
structure Promise (s : Store) : Prop where
  range : ∀ userId uid, .handed userId uid ∈ s.log → minUid ≤ uid ∧ uid ≤ maxUid
  stable : ∀ userId uid uid', .handed userId uid ∈ s.log → .handed userId uid' ∈ s.log → uid = uid'
  /-- As long as its row is there, soft-deleted or not, a user keeps its UID. -/
  kept : ∀ userId uid, .handed userId uid ∈ s.log → ∀ u ∈ s.users, u.id = userId →
    u.jitUid = some uid
  /-- Two users that both still have a row do not share one. -/
  distinct : ∀ userId userId' uid, userId ≠ userId' → .handed userId uid ∈ s.log →
    .handed userId' uid ∈ s.log →
    (∀ u ∈ s.users, u.id ≠ userId) ∨ ∀ u ∈ s.users, u.id ≠ userId'

theorem Inv.promise (h : Inv s) : Promise s where
  range v x hx := (h.handed v x hx).2.1
  stable := h.stable
  kept v x hx := (h.handed v x hx).2.2
  distinct v w x hne hx hy := by
    refine Classical.or_iff_not_imp_left.mpr fun hv w' hw' hid' ↦ ?_
    obtain ⟨v', hv', hid⟩ : ∃ u ∈ s.users, u.id = v := by simpa using hv
    exact hne (hid.symm.trans ((h.distinct v' hv' w' hw' x ((h.handed v x hx).2.2 v' hv' hid)
      ((h.handed w x hy).2.2 w' hw' hid')).trans hid'))

/-- In every interleaving of allocations with users being created and deleted,
the promise is kept, and every call ends with a justified outcome. -/
theorem getOrAllocateUid_safe {s : Store} (h : Initial s) {es : List (Event Id Unit Change)}
    {p : Pool Store Call} (hr : Run program.step free (Program.idle Call s) es p) :
    Promise p.store ∧
      ∀ e q o, program.step p e = some q → q.store.log = o :: p.store.log →
        Justified p.store o := by
  have hp : Program.Holds Inv Assert p := program_keeps.run (Program.holds_idle h.inv) hr
  refine ⟨hp.1.promise, fun e q o hs ho ↦ ?_⟩
  cases e with
  | spawn i a =>
    obtain ⟨-, rfl⟩ := Program.step_spawn hs
    simp at ho
  | act i e =>
    obtain ⟨k, ⟨s', k'⟩, hk, hact, rfl⟩ := Program.step_act hs
    exact (act_spec hp.1 (hp.2 i k hk) hact).2.2.2 o ho
  | abort i =>
    obtain ⟨k, hk, rfl⟩ := Program.step_abort hs
    simp only [program] at ho
    split at ho <;> simp [Store.unlock] at ho
  | env d =>
    obtain ⟨s', hd, rfl⟩ := Program.step_env hs
    cases d with
    | createUser userId =>
      simp only [program, change] at hd
      split at hd
      · cases hd
      · obtain rfl := Option.some.inj hd; simp at ho
    | deleteUser | softDeleteSelf => obtain rfl := Option.some.inj hd; simp at ho

def oneUser : Store where
  orgId := "org"
  users := [{ id := "ana", orgId := "org" }]

def anaAsks : List (Event Id Unit Change) := .spawn 0 "ana" :: List.replicate 5 (.act 0 ())

theorem oneUser_initial : Initial oneUser := ⟨by decide, by decide, by decide, by decide, by decide, rfl⟩

/-- Ana gets the first UID of the range, and the promise holds of it. -/
theorem getOrAllocateUid_safe_oneUser :
    ∃ p, exec program.step (Program.idle Call oneUser) anaAsks = some p ∧
      p.store.log = [.handed "ana" 70000] ∧ Promise p.store := by
  have h : exec program.step (Program.idle Call oneUser) anaAsks = some _ := rfl
  exact ⟨_, h, rfl, (getOrAllocateUid_safe oneUser_initial (run_of_exec h)).1⟩

/-- Ana is handed a UID and deleted, and Ben, who comes after her, is handed the
same one. -/
theorem uid_reused_after_deletion :
    ∃ es p, Run program.step free (Program.idle Call oneUser) es p ∧
      .handed "ana" 70000 ∈ p.store.log ∧ .handed "ben" 70000 ∈ p.store.log :=
  have h : exec program.step (Program.idle Call oneUser)
      (anaAsks ++ [.env (.deleteUser "ana"), .env (.createUser "ben"), .spawn 0 "ben"] ++
        List.replicate 5 (.act 0 ())) = some _ := rfl
  ⟨_, _, run_of_exec h, by decide, by decide⟩

end Shellius.JitUid
