import Shellius.Lib.Pool
import Shellius.Access.Request

/-!
# The life of one request

`review`, `revoke`, `markExpired` and `markPendingExpired` on one request, any
number of calls at once, each database round trip a step of its own.  `review`
decides by a conditional update; the other three read the row, check it and then
write whatever they find.

Every step only ever moves a request forward: once decided it is never pending
again, and its deadline stays (`Later`).  That is the one fact the assertions of
the calls rest on.  The order of the final states is another matter, and
`lifecycle_safe_iff` says which writes break it.
-/

namespace Shellius.Lifecycle

open Lib

/-- The row, the clock and the organization around it. -/
structure Store where
  now : Millis
  db : Database
  request : AccessRequest

inductive Operation
  | review (params : ReviewParams)
  | revoke (params : RevokeParams)
  | markExpired
  | markPendingExpired

inductive Call
  | /-- `review` finds the request. -/
    reviewFind (params : ReviewParams)
  | reviewApprover (params : ReviewParams) (decision : Decision) (found : AccessRequest)
  | reviewPolicy (params : ReviewParams) (now : Millis) (found : AccessRequest)
  | reviewClaim (params : ReviewParams) (decision : Decision) (now : Millis) (duration : Int)
  | /-- `review` and `revoke` read the row once more to return it. -/
    refetch
  | /-- `revoke` finds the request. -/
    revokeFind (params : RevokeParams)
  | revokeWrite (params : RevokeParams) (now : Millis)
  | /-- `markExpired` looks at the clock. -/
    expireClock
  | expireFind (now : Millis)
  | expireWrite
  | /-- `markPendingExpired` looks at the clock. -/
    pendingClock
  | pendingFind (cutoff : Millis)
  | pendingWrite

def start : Operation → Call
  | .review params => .reviewFind params
  | .revoke params => .revokeFind params
  | .markExpired => .expireClock
  | .markPendingExpired => .pendingClock

/-- What a call that stands at a write turns the row into. -/
def written : Call → AccessRequest → AccessRequest
  | .reviewClaim params decision now duration => claim (decideRow params decision now duration)
  | .revokeWrite params now => revokeRow params now
  | .expireWrite | .pendingWrite => expireRow
  | _ => id

def next (s : Store) : Call → Option Call
  | .reviewFind params =>
    match checkReviewParams params with
    | .error _ => none
    | .ok decision =>
      if params.requestId ≠ s.request.id then none
      else
        match checkReview params s.request with
        | .error _ => none
        | .ok () => some (.reviewApprover params decision s.request)
  | .reviewApprover params decision found =>
    if ¬ canStillApprove s.db found.orgId params.reviewerId then none
    else
      match decision with
      | .approve => some (.reviewPolicy params s.now found)
      | .deny => some (.reviewClaim params .deny s.now 0)
  | .reviewPolicy params now found =>
    some (.reviewClaim params .approve now
      (reviewDuration (reviewPolicy s.db found) (askedDuration params found)))
  | .reviewClaim _ _ _ _ => if s.request.status = .pending then some .refetch else none
  | .refetch => none
  | .revokeFind params =>
    match checkRevokeParams params with
    | .error _ => none
    | .ok () =>
      if params.requestId ≠ s.request.id ∨ params.orgId ≠ s.request.orgId then none
      else
        match checkRevoke params s.request with
        | .error _ => none
        | .ok () => some (.revokeWrite params s.now)
  | .revokeWrite _ _ => some .refetch
  | .expireClock => some (.expireFind s.now)
  | .expireFind now => if hasExpired now s.request then some .expireWrite else none
  | .expireWrite => none
  | .pendingClock => some (.pendingFind (pendingCutoff s.now))
  | .pendingFind cutoff => if isStale cutoff s.request then some .pendingWrite else none
  | .pendingWrite => none

def act (_ : Nat) (s : Store) (k : Call) (_ : Unit) : Option (Store × Option Call) :=
  some ({ s with request := written k s.request }, next s k)

inductive Change
  | tick (now : Millis)
  | org (db : Database)

def program : Program Store Operation Call Unit Change where
  start
  act
  env s
    | .tick now => if s.now ≤ now then some { s with now } else none
    | .org db => some { s with db }

/-! ## Moving forward -/

variable {s s' : Store} {k : Call} {i : Nat} {p q : Pool Store Call}
  {e : Event Operation Unit Change} {r : AccessRequest}

/-- `s'` may come after `s`: time has not gone back, and a request that is no
longer pending stays so and keeps its deadline. -/
structure Later (s s' : Store) : Prop where
  now : s.now ≤ s'.now
  request : s.request.status ≠ .pending →
    s'.request.status ≠ .pending ∧ s'.request.expiresAt = s.request.expiresAt

@[simp] theorem claim_of_ne {f : AccessRequest → AccessRequest} (h : r.status ≠ .pending) :
    claim f r = r := if_neg h

theorem written_later (h : r.status ≠ .pending) :
    (written k r).status ≠ .pending ∧ (written k r).expiresAt = r.expiresAt := by
  cases k with
  | reviewClaim => simp [written, h]
  | revokeWrite => simp [written, revokeRow]
  | expireWrite | pendingWrite => simp [written, expireRow]
  | _ => exact ⟨h, rfl⟩

theorem later_written : Later s { s with request := written k s.request } :=
  ⟨le_rfl, written_later⟩

theorem env_later {d : Change} (h : program.env s d = some s') : Later s s' := by
  cases d with
  | tick now =>
    simp only [program] at h
    split at h
    · rename_i hle
      obtain rfl := Option.some.inj h
      exact ⟨hle, fun h ↦ ⟨h, rfl⟩⟩
    · cases h
  | org db => obtain rfl := Option.some.inj h; exact ⟨le_rfl, fun h ↦ ⟨h, rfl⟩⟩

/-- What holds of a call in flight: `markExpired` has seen the deadline pass. -/
def Assert (s : Store) (_ : Nat) : Call → Prop
  | .expireFind now => now ≤ s.now
  | .expireWrite => s.request.status ≠ .pending ∧
      ∃ t, s.request.expiresAt = some t ∧ t < s.now
  | _ => True

theorem Assert.later (h : Assert s i k) (hl : Later s s') : Assert s' i k := by
  cases k with
  | expireFind now => exact le_trans h hl.now
  | expireWrite =>
    obtain ⟨hp, t, ht, hlt⟩ := h
    obtain ⟨hp', ht'⟩ := hl.request hp
    exact ⟨hp', t, ht'.trans ht, lt_of_lt_of_le hlt hl.now⟩
  | _ => trivial

/-- Only `markExpired` writes what `markExpired` writes: the call has just
selected the row. -/
theorem next_expireWrite (h : next s k = some .expireWrite) :
    ∃ now, k = .expireFind now ∧ hasExpired now s.request = true := by
  cases k with
  | expireFind now => exact ⟨now, rfl, by simpa [next] using h⟩
  | reviewApprover _ decision => cases decision <;> grind [next]
  | _ => grind [next]

theorem next_expireFind {now : Millis} (h : next s k = some (.expireFind now)) :
    k = .expireClock ∧ now = s.now := by
  cases k with
  | expireClock => exact ⟨rfl, by simpa [next, eq_comm] using h⟩
  | reviewApprover _ decision => cases decision <;> grind [next]
  | _ => grind [next]

theorem assert_next (h : Assert s i k) {l : Call} (hl : next s k = some l) :
    Assert { s with request := written k s.request } i l := by
  cases l with
  | expireFind now => exact (next_expireFind hl).2.le
  | expireWrite =>
    obtain ⟨now, rfl, hexp⟩ := next_expireWrite hl
    simp only [hasExpired, Option.any_eq_true, decide_eq_true_eq] at hexp
    obtain ⟨hst, t, ht, hlt⟩ := hexp
    exact ⟨by simp [written, hst], t, ht, lt_of_lt_of_le hlt h⟩
  | _ => trivial

theorem program_keeps : program.Keeps free (fun _ ↦ True) Assert where
  spawn s i a _ := by cases a <;> trivial
  act p i k e s' k' hp hk hact _ := by
    obtain ⟨rfl, rfl⟩ := Prod.mk.inj (Option.some.inj hact)
    exact ⟨trivial, fun l hl ↦ assert_next (hp.2 i k hk) hl,
      fun j l _ hj ↦ (hp.2 j l hj).later later_written⟩
  abort p i k hp _ := ⟨trivial, fun j l _ hj ↦ hp.2 j l hj⟩
  env s d s' _ h := ⟨trivial, fun j l hj ↦ hj.later (env_later h)⟩

/-! ## Safety -/

/-- The step is the one a call at `k` takes. -/
def Takes (p : Pool Store Call) (e : Event Operation Unit Change) (k : Call) : Prop :=
  ∃ i, e = .act i () ∧ p.calls i = some k

/-- What a step must not do to the request. -/
structure Safe (p : Pool Store Call) (e : Event Operation Unit Change) (q : Pool Store Call) :
    Prop where
  /-- `markPendingExpired` does not expire a request that has been decided. -/
  decided : p.store.request.status = .approved ∨ p.store.request.status = .denied →
    Takes p e .pendingWrite → q.store.request.status ≠ .expired
  /-- A request that is denied, revoked or expired keeps its status. -/
  final : p.store.request.status = .denied ∨ p.store.request.status = .revoked ∨
    p.store.request.status = .expired → q.store.request.status = p.store.request.status
  /-- An approved request stays approved until it is revoked or its deadline
  has passed. -/
  approved : p.store.request.status = .approved → q.store.request.status ≠ .approved →
    (∃ params now, Takes p e (.revokeWrite params now)) ∨
      ∃ t, p.store.request.expiresAt = some t ∧ t < p.store.now

/-- The writes that find the request as their call left it, or as the write
would leave it. -/
def Undisturbed (p : Pool Store Call) (e : Event Operation Unit Change) (_ : Pool Store Call) :
    Prop :=
  ∀ k, Takes p e k →
    match k with
    | .revokeWrite _ _ =>
      p.store.request.status ≠ .denied ∧ p.store.request.status ≠ .expired
    | .expireWrite =>
      p.store.request.status = .approved ∨ p.store.request.status = .expired
    | .pendingWrite =>
      p.store.request.status = .pending ∨ p.store.request.status = .expired
    | _ => True

theorem step_request (h : program.step p e = some q) :
    (∃ k, Takes p e k ∧ q.store.request = written k p.store.request) ∨
      (∀ k, ¬ Takes p e k) ∧ q.store.request = p.store.request := by
  cases e with
  | spawn i a =>
    obtain ⟨-, rfl⟩ := Program.step_spawn h
    exact .inr ⟨fun k ⟨i, he, _⟩ ↦ (by cases he), rfl⟩
  | act i e =>
    obtain ⟨k, r, hk, hr, rfl⟩ := Program.step_act h
    obtain rfl := Option.some.inj hr
    exact .inl ⟨k, ⟨i, rfl, hk⟩, rfl⟩
  | abort i =>
    obtain ⟨k, -, rfl⟩ := Program.step_abort h
    exact .inr ⟨fun k ⟨i, he, _⟩ ↦ (by cases he), rfl⟩
  | env d =>
    obtain ⟨s, hs, rfl⟩ := Program.step_env h
    refine .inr ⟨fun k ⟨i, he, _⟩ ↦ (by cases he), ?_⟩
    cases d with
    | tick now =>
      simp only [program] at hs
      split at hs
      · rw [← Option.some.inj hs]
      · cases hs
    | org db => rw [← Option.some.inj hs]

theorem Takes.unique {k l : Call} (hk : Takes p e k) (hl : Takes p e l) : k = l := by
  obtain ⟨i, rfl, hk⟩ := hk
  obtain ⟨j, he, hl⟩ := hl
  cases he
  exact Option.some.inj (hk.symm.trans hl)

/-- A step is safe exactly if it is not a write that was overtaken. -/
theorem safe_iff (hp : Program.Holds (fun _ ↦ True) Assert p) (h : program.step p e = some q) :
    Safe p e q ↔ Undisturbed p e q := by
  rcases step_request h with ⟨k, hk, hq⟩ | ⟨hno, hq⟩
  · have hassert : Assert p.store 0 k := by
      obtain ⟨i, -, hi⟩ := hk
      cases k <;> exact hp.2 i _ hi
    constructor
    · rintro ⟨hdec, hfin, happ⟩ l hl
      obtain rfl := hk.unique hl
      cases k with
      | revokeWrite params now =>
        rw [hq] at hfin
        exact ⟨fun hst ↦ by simp [written, revokeRow, hst] at hfin,
          fun hst ↦ by simp [written, revokeRow, hst] at hfin⟩
      | expireWrite =>
        have hne := hassert.1
        rw [hq] at hfin
        cases hst : p.store.request.status <;>
          simp_all [written, expireRow]
      | pendingWrite =>
        rw [hq] at hfin hdec
        cases hst : p.store.request.status <;>
          simp_all [written, expireRow]
      | _ => trivial
    · intro hu
      have hu := hu k hk
      have hother : k ≠ .pendingWrite → ¬ Takes p e .pendingWrite := fun hne hk' ↦
        hne (hk.unique hk')
      constructor
      · intro hdec hpend
        obtain rfl := hk.unique hpend
        rcases hu with hst | hst <;> simp [hst] at hdec
      · intro hfin
        rw [hq]
        cases k with
        | reviewClaim => exact congrArg _ (claim_of_ne (by rintro hst; simp [hst] at hfin))
        | revokeWrite => 
          obtain ⟨hd, he⟩ := hu
          simpa [written, revokeRow, hd, he, eq_comm] using hfin
        | expireWrite =>
          rcases hu with hst | hst
          · simp [hst] at hfin
          · exact hst.symm
        | pendingWrite =>
          rcases hu with hst | hst
          · simp [hst] at hfin
          · exact hst.symm
        | _ => rfl
      · intro happ hne
        rw [hq] at hne
        cases k with
        | reviewClaim => simp [written, happ] at hne
        | revokeWrite params now => exact .inl ⟨params, now, hk⟩
        | expireWrite => exact .inr hassert.2
        | pendingWrite => simp [happ] at hu
        | _ => exact (hne happ).elim
  · refine ⟨fun _ k hk ↦ (hno k hk).elim, fun _ ↦ ⟨fun _ hk ↦ (hno _ hk).elim, fun _ ↦ by rw [hq],
      fun happ hne ↦ (hne (hq ▸ happ)).elim⟩⟩

/-- In a run from any request, the steps are all safe exactly if no write was
overtaken. -/
theorem lifecycle_safe_iff {s : Store} {es : List (Event Operation Unit Change)} :
    Run program.step Safe (Program.idle Call s) es p ↔
      Run program.step Undisturbed (Program.idle Call s) es p := by
  have h₀ : Program.Holds (fun _ ↦ True) Assert (Program.idle Call s) :=
    Program.holds_idle trivial
  constructor <;> intro h <;> refine h.mono_of_invariant h₀ fun t e u ht hs hok ↦
    ⟨program_keeps.step ht hs trivial, ?_⟩
  · exact (safe_iff ht hs).mp hok
  · exact (safe_iff ht hs).mpr hok

/-! ### A request approved at the last moment -/

def overdue : Store where
  now := 172800000
  db := { users := [{ id := "eve", orgId := "org" }] }
  request :=
    { id := "req", orgId := "org", requesterId := "ana", reviewerId := some "eve",
      serverId := "srv", status := .pending, reason := "patching", requestedPrincipal := "root",
      requestedDuration := 3600, protocol := .ssh, createdAt := 0, approvers := ["eve"] }

def lastMoment : List (Event Operation Unit Change) :=
  [.spawn 0 .markPendingExpired, .act 0 (), .act 0 (),
    .spawn 1 (.review { requestId := "req", reviewerId := "eve", decision := some .approve })] ++
  List.replicate 5 (.act 1 ())

/-- The job expires the request that Eve has just approved for an hour. -/
theorem approval_lost_to_pending_expiry :
    ∃ p q, Run program.step free (Program.idle Call overdue) lastMoment p ∧
      program.step p (.act 0 ()) = some q ∧
      p.store.request.status = .approved ∧
      p.store.request.expiresAt = some (p.store.now + 3600000) ∧
      q.store.request.status = .expired ∧ ¬ Safe p (.act 0 ()) q := by
  have h : exec program.step (Program.idle Call overdue) lastMoment = some _ := rfl
  refine ⟨_, _, run_of_exec h, rfl, by decide, by decide, by decide, fun hs ↦ ?_⟩
  exact hs.decided (.inl (by decide)) ⟨0, rfl, rfl⟩ (by decide)

end Shellius.Lifecycle
