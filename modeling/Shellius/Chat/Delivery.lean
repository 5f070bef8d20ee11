import Shellius.Lib.Pool

/-!
# Delivering a chat message

`deliverOne` looks a delivery up, posts its message, marks the row and records the health of the
destination, in steps between which it may die or lose the database, and a job whose worker died or
stalled is run again.  Nothing but the mark says that the message was posted, and an error of a
later step is taken for one of the post.

If no run looks the row up while another has it in hand, and what follows a post does not fail
before the run returns, then the message is posted at most once and its row agrees
(`agrees_of_careful`).
-/

namespace Shellius.Chat.Delivery

open Lib Lib.Program

/-! ## The state -/

inductive Status
  | queued | delivered | failed | dropped
deriving DecidableEq

/-- A row of `chatDelivery`. -/
structure Row where
  status : Status := .queued
  attempt : Nat := 0
  error : Option String := none
deriving DecidableEq

/-- A row of `chatDestination`. -/
structure Destination where
  isActive : Bool := true
  consecutiveFailures : Nat := 0

/-- What a step throws. -/
structure Failure where
  retryable : Bool := false
  disable : Bool := false
  message : String := ""
deriving DecidableEq

/-- The rows, the channel and the jobs of one delivery, each of which is told by its attempt. -/
structure Store where
  row : Option Row
  destination : Option Destination
  /-- How often the message is in the channel. -/
  posts : Nat := 0
  /-- The jobs that wait, and those that were taken and have not returned. -/
  queue : List Nat := []
  taken : List Nat := []
  /-- `dispatchChatEvent` has not queued the first job, and waits for the queue. -/
  unsent : Bool := true
  waiting : Bool := true

/-- Where a run of `deliverOne` is. -/
inductive Point
  | take
  | look
  | drop
  | deliver
  | mark
  | succeed
  | caught (err : Failure)
  | record (retryable : Bool) (err : Failure)
  | requeue
deriving DecidableEq

/-- A run, with the failures that the row of the destination had when it was looked up. -/
structure Call where
  attempt : Nat
  failures : Nat := 0
  point : Point := .take
deriving DecidableEq

inductive Act
  | goesOn
  | /-- The step of the database or the queue fails. -/
    fails (message : String)
  | /-- The adapter posts the message, or raises an error without, or with the message posted. -/
    posts
  | refuses (err : Failure)
  | losesAnswer (err : Failure)
deriving DecidableEq

inductive Env
  | /-- The first job is queued. -/
    enqueue
  | /-- The queue answered the dispatch, or the dispatch gave up. -/
    answered
  | timedOut
  | /-- The queue gives a job out again that has not returned. -/
    rerun (attempt : Nat)
  | switch (isActive : Bool)
  | prune

/-! ## The steps -/

def maxSoftRetries : Nat := 3

def maxConsecutiveFailures : Nat := 10

def Store.returned (s : Store) (c : Call) : Store × Option Call :=
  ({ s with taken := s.taken.erase c.attempt }, none)

/-- `recordFailure`, with the failures of the row that was looked up. -/
def recordFailure (d : Destination) (failures : Nat) (err : Failure) : Destination :=
  { isActive := d.isActive && !(maxConsecutiveFailures ≤ failures + 1 || err.disable)
    consecutiveFailures := failures + 1 }

/-- `deliverOne`, one step. -/
def act (_ : Nat) (s : Store) (c : Call) (a : Act) : Option (Store × Option Call) :=
  match c.point, a with
  | .take, .goesOn =>
    if c.attempt ∈ s.queue then
      some ({ s with queue := s.queue.erase c.attempt, taken := c.attempt :: s.taken },
        some { c with point := .look })
    else none
  | .look, .goesOn =>
    match s.row with
    | none => some (s.returned c)
    | some row =>
      if row.status = .delivered then some (s.returned c)
      else
        match s.destination with
        | none => some (s, some { c with point := .drop })
        | some d =>
          if d.isActive then
            some (s, some { c with failures := d.consecutiveFailures, point := .deliver })
          else some (s, some { c with point := .drop })
  | .drop, .goesOn => s.row.map fun row ↦ Store.returned
      { s with row := some { row with
          status := .dropped, error := some "Destination is switched off" } } c
  | .deliver, .posts => some ({ s with posts := s.posts + 1 }, some { c with point := .mark })
  | .deliver, .refuses err => some (s, some { c with point := .caught err })
  | .deliver, .losesAnswer err =>
    -- only an error that is not retryable is raised with the message posted
    if err.retryable then none
    else some ({ s with posts := s.posts + 1 }, some { c with point := .caught err })
  | .mark, .goesOn => s.row.map fun _ ↦
      ({ s with row := some { status := .delivered, attempt := c.attempt + 1 } },
        some { c with point := .succeed })
  | .succeed, .goesOn => s.destination.map fun d ↦
      Store.returned { s with destination := some { d with consecutiveFailures := 0 } } c
  | .caught err, .goesOn =>
    let retryable := err.retryable && c.attempt + 1 < maxSoftRetries
    s.row.map fun _ ↦
      ({ s with row := some { status := if retryable then .queued else .failed,
                              attempt := c.attempt + 1, error := some err.message } },
        some { c with point := .record retryable err })
  | .record retryable err, .goesOn => s.destination.map fun d ↦
      let s := { s with destination := some (recordFailure d c.failures err) }
      if retryable then (s, some { c with point := .requeue }) else s.returned c
  | .requeue, .goesOn => some (Store.returned { s with queue := (c.attempt + 1) :: s.queue } c)
  | .mark, .fails message | .succeed, .fails message =>
    some (s, some { c with point := .caught { message := message } })
  | .look, .fails _ | .drop, .fails _ | .caught _, .fails _ | .record _ _, .fails _
  | .requeue, .fails _ => some (s.returned c)
  | _, _ => none

def env (s : Store) : Env → Option Store
  | .enqueue => if s.unsent then some { s with unsent := false, queue := 0 :: s.queue } else none
  | .answered => some { s with waiting := false }
  | .timedOut =>
    if s.waiting then
      some { s with
        waiting := false
        row := s.row.map fun row ↦
          if row.status = .queued then
            { row with status := .dropped, error := some "Not queued: enqueue timed out" }
          else row }
    else none
  | .rerun attempt =>
    if attempt ∈ s.taken then some { s with queue := attempt :: s.queue } else none
  | .switch isActive =>
    some { s with destination := s.destination.map fun d ↦ { d with isActive := isActive } }
  | .prune => some { s with row := none }

def program : Program Store Nat Call Act Env where
  start attempt := { attempt := attempt }
  act := act
  env := env

/-- A delivery as `dispatchChatEvent` creates it. -/
def dispatched (d : Option Destination) : Store := { row := some {}, destination := d }

/-! ## What is asked of it -/

/-- The message is posted at most once, and if it was, then its row does not end otherwise. -/
def Agrees (p : Pool Store Call) : Prop :=
  p.store.posts ≤ 1 ∧ (0 < p.store.posts → (∀ i, p.calls i = none) →
    ∀ row ∈ p.store.row, row.status ≠ .failed ∧ row.status ≠ .dropped)

/-- The run has looked the row up and will write it. -/
def Point.inHand : Point → Bool
  | .drop | .deliver | .mark | .caught _ => true
  | _ => false

/-- A run looks the row up while no other has it in hand, the adapter raises no error for a message
it posted, and a run that has posted neither dies before the mark nor has a step fail. -/
def Careful (p : Pool Store Call) : Event Nat Act Env → Prop
  | .act i a => ∀ c, p.calls i = some c →
      (c.point = .look → a = .goesOn → ∀ j d, p.calls j = some d → d.point.inHand = false) ∧
      (c.point = .mark ∨ c.point = .succeed → ∀ message, a ≠ .fails message) ∧
      ∀ err, a ≠ .losesAnswer err
  | .abort i => ∀ c, p.calls i = some c → c.point ≠ .mark
  | .spawn _ _ | .env _ => True

/-! ## The invariant -/

structure Inv (p : Pool Store Call) : Prop where
  once : p.store.posts ≤ 1
  alone : ∀ i j c d, p.calls i = some c → p.calls j = some d → c.point.inHand = true →
    d.point.inHand = true → i = j
  fresh : ∀ i c, p.calls i = some c → c.point.inHand = true → c.point ≠ .mark → p.store.posts = 0
  marked : p.store.posts ≠ 0 → (∀ row ∈ p.store.row, row.status = .delivered) ∨
    ∃ i c, p.calls i = some c ∧ c.point = .mark

variable {p q : Pool Store Call} {s s' : Store} {i : Nat} {c : Call} {o : Option Call} {a : Act}

theorem calls_update {j : Nat} {d : Call} (h : Function.update p.calls i o j = some d) :
    j = i ∧ o = some d ∨ j ≠ i ∧ p.calls j = some d := by
  by_cases hij : j = i
  · subst hij
    rw [Function.update_self] at h
    exact .inl ⟨rfl, h⟩
  · rw [Function.update_of_ne hij] at h
    exact .inr ⟨hij, h⟩

theorem Inv.agrees (h : Inv p) : Agrees p := by
  refine ⟨h.once, fun hposts hcalls row hrow ↦ ?_⟩
  obtain hdelivered | ⟨i, c, hc, -⟩ := h.marked (Nat.ne_of_gt hposts)
  · rw [hdelivered row hrow]
    decide
  · cases (hcalls i).symm.trans hc

theorem Inv.move (h : Inv p) (hc : ∀ c, p.calls i = some c → c.point = .mark →
      ∀ row ∈ s'.row, row.status = .delivered)
    (ho : ∀ d, o = some d → d.point.inHand = true → p.store.posts = 0 ∧ d.point ≠ .mark ∧
      ∀ j e, j ≠ i → p.calls j = some e → e.point.inHand = false)
    (hposts : s'.posts = p.store.posts)
    (hrow : s'.row = p.store.row ∨ p.store.posts = 0 ∨ ∀ row ∈ s'.row, row.status = .delivered) :
    Inv ⟨s', Function.update p.calls i o⟩ := by
  refine ⟨hposts ▸ h.once, fun j k d e hj hk hd he ↦ ?_, fun j d hj hd hmark ↦ ?_, fun hne ↦ ?_⟩
  · obtain ⟨rfl, hj'⟩ | ⟨hji, hj'⟩ := calls_update hj <;>
      obtain ⟨rfl, hk'⟩ | ⟨hki, hk'⟩ := calls_update hk
    · rfl
    · cases he.symm.trans ((ho d hj' hd).2.2 k e hki hk')
    · cases hd.symm.trans ((ho e hk' he).2.2 j d hji hj')
    · exact h.alone j k d e hj' hk' hd he
  · obtain ⟨-, hj'⟩ | ⟨-, hj'⟩ := calls_update hj
    · exact hposts.trans (ho d hj' hd).1
    · exact hposts.trans (h.fresh j d hj' hd hmark)
  · obtain hold | ⟨j, d, hj, hd⟩ := h.marked (hposts ▸ hne)
    · obtain hrow | hnone | hrow := hrow
      · exact .inl (hrow ▸ hold)
      · exact absurd (hposts.trans hnone) hne
      · exact .inl hrow
    · by_cases hji : j = i
      · subst hji
        exact .inl (hc d hj hd)
      · exact .inr ⟨j, d, (Function.update_of_ne hji ..).trans hj, hd⟩

theorem Inv.post (h : Inv p) (hc : p.calls i = some c) (hpoint : c.point = .deliver) :
    Inv ⟨{ p.store with posts := p.store.posts + 1 },
      Function.update p.calls i (some { c with point := .mark })⟩ := by
  have hhand : c.point.inHand = true := by rw [hpoint]; rfl
  have hzero := h.fresh i c hc hhand (by rw [hpoint]; exact Point.noConfusion)
  have hothers : ∀ {j d}, Function.update p.calls i (some { c with point := .mark }) j = some d →
      d.point.inHand = true → j = i ∧ d.point = .mark := by
    intro j d hj hd
    obtain ⟨hij, hj'⟩ | ⟨hij, hj'⟩ := calls_update hj
    · exact ⟨hij, Option.some.inj hj' ▸ rfl⟩
    · exact absurd (h.alone j i d c hj' hc hd hhand) hij
  refine ⟨Nat.le_of_eq (congrArg (· + 1) hzero), fun j k d e hj hk hd he ↦ ?_, fun j d hj hd hmark ↦ ?_,
    fun _ ↦ .inr ⟨i, _, Function.update_self .., rfl⟩⟩
  · exact (hothers hj hd).1.trans (hothers hk he).1.symm
  · exact absurd (hothers hj hd).2 hmark

theorem Inv.quiet (h : Inv p) (hc : p.calls i = some c) (hmark : c.point ≠ .mark)
    (ho : ∀ d, o = some d → d.point.inHand = false) (hposts : s'.posts = p.store.posts)
    (hrow : s'.row = p.store.row ∨ p.store.posts = 0) :
    Inv ⟨s', Function.update p.calls i o⟩ := by
  refine h.move (fun d hd hdmark ↦ ?_) (fun d hd hhand ↦ ?_) hposts (hrow.imp_right .inl)
  · obtain rfl := Option.some.inj (hc.symm.trans hd)
    exact absurd hdmark hmark
  · cases (ho d hd).symm.trans hhand

theorem Inv.act {r : Store × Option Call} (h : Inv p) (hc : p.calls i = some c)
    (hr : act i p.store c a = some r) (hok : Careful p (.act i a)) :
    Inv ⟨r.1, Function.update p.calls i r.2⟩ := by
  obtain ⟨hlook, hfails, hlost⟩ := hok c hc
  have hfresh := fun hhand hmark ↦ h.fresh i c hc hhand hmark
  have hret : ∀ d, (none : Option Call) = some d → d.point.inHand = false := by simp
  unfold Delivery.act at hr
  split at hr <;> rename_i hpoint <;> try simp only [hpoint] at hlook hfails hfresh
  case h_1 =>
    split at hr
    · obtain rfl := Option.some.inj hr
      exact h.quiet hc (by simp [hpoint]) (by simp [Point.inHand]) rfl (.inl rfl)
    · cases hr
  case h_2 =>
    have hmark : c.point ≠ .mark := by simp [hpoint]
    have halone := hlook trivial trivial
    have hzero : ∀ {row}, p.store.row = some row → row.status ≠ .delivered → p.store.posts = 0 := by
      intro row hrow hstatus
      by_contra hne
      obtain hdelivered | ⟨j, d, hj, hd⟩ := h.marked hne
      · exact hstatus (hdelivered row hrow)
      · have := halone j d hj
        rw [hd] at this
        cases this
    split at hr
    · obtain rfl := Option.some.inj hr
      exact h.quiet hc hmark hret rfl (.inl rfl)
    · rename_i row hrow
      split at hr
      · obtain rfl := Option.some.inj hr
        exact h.quiet hc hmark hret rfl (.inl rfl)
      · rename_i hstatus
        have htake : ∀ d : Call, d.point ≠ .mark →
            Inv ⟨p.store, Function.update p.calls i (some d)⟩ := by
          intro d hd
          refine h.move (fun e he hemark ↦ ?_) (fun e he _ ↦ ?_) rfl (.inl rfl)
          · obtain rfl := Option.some.inj (hc.symm.trans he)
            exact absurd hemark hmark
          · obtain rfl := Option.some.inj he
            exact ⟨hzero hrow hstatus, hd, fun j e _ he ↦ halone j e he⟩
        split at hr
        · obtain rfl := Option.some.inj hr
          exact htake _ Point.noConfusion
        · split at hr <;> obtain rfl := Option.some.inj hr <;> exact htake _ Point.noConfusion
  case h_3 =>
    obtain ⟨row, -, rfl⟩ := Option.map_eq_some_iff.mp hr
    exact h.quiet hc (by simp [hpoint]) hret rfl (.inr (hfresh rfl Point.noConfusion))
  case h_4 =>
    obtain rfl := Option.some.inj hr
    exact h.post hc hpoint
  case h_5 err =>
    obtain rfl := Option.some.inj hr
    have hhand : c.point.inHand = true := by rw [hpoint]; rfl
    refine h.move (fun d hd hmark ↦ ?_) (fun d hd _ ↦ ?_) rfl (.inl rfl)
    · obtain rfl := Option.some.inj (hc.symm.trans hd)
      cases hpoint.symm.trans hmark
    · obtain rfl := Option.some.inj hd
      refine ⟨hfresh rfl Point.noConfusion, Point.noConfusion, fun j e hj he ↦ ?_⟩
      by_contra hehand
      exact hj (h.alone j i e c he hc (by simpa using hehand) hhand)
  case h_6 => exact absurd rfl (hlost _)
  case h_7 =>
    obtain ⟨row, -, rfl⟩ := Option.map_eq_some_iff.mp hr
    have hdelivered : ∀ row ∈ some ({ status := .delivered, attempt := c.attempt + 1 } : Row),
        row.status = .delivered := by simp
    exact h.move (fun _ _ _ ↦ hdelivered) (by simp [Point.inHand]) rfl (.inr (.inr hdelivered))
  case h_8 =>
    obtain ⟨d, -, rfl⟩ := Option.map_eq_some_iff.mp hr
    exact h.quiet hc (by simp [hpoint]) hret rfl (.inl rfl)
  case h_9 err =>
    obtain ⟨row, -, rfl⟩ := Option.map_eq_some_iff.mp hr
    exact h.quiet hc (by simp [hpoint]) (by simp [Point.inHand]) rfl
      (.inr (hfresh rfl Point.noConfusion))
  case h_10 retryable err =>
    obtain ⟨d, -, rfl⟩ := Option.map_eq_some_iff.mp hr
    have hmark : c.point ≠ .mark := by simp [hpoint]
    dsimp only
    split
    · exact h.quiet hc hmark (by simp [Point.inHand]) rfl (.inl rfl)
    · exact h.quiet hc hmark hret rfl (.inl rfl)
  case h_11 =>
    obtain rfl := Option.some.inj hr
    exact h.quiet hc (by simp [hpoint]) hret rfl (.inl rfl)
  case h_12 => exact absurd rfl (hfails (.inl trivial) _)
  case h_13 => exact absurd rfl (hfails (.inr trivial) _)
  case h_19 => cases hr
  all_goals
    obtain rfl := Option.some.inj hr
    exact h.quiet hc (by simp [hpoint]) hret rfl (.inl rfl)

theorem Inv.env {d : Env} (h : Inv p) (hs : env p.store d = some s') : Inv ⟨s', p.calls⟩ := by
  have hkeep : s'.posts = p.store.posts → (∀ row' ∈ s'.row, ∃ row ∈ p.store.row,
      row.status = .delivered → row'.status = .delivered) → Inv ⟨s', p.calls⟩ := by
    intro hposts hrows
    refine ⟨hposts ▸ h.once, h.alone, fun j e hj hhand hmark ↦ hposts.trans
      (h.fresh j e hj hhand hmark), fun hne ↦ (h.marked (hposts ▸ hne)).imp_left ?_⟩
    intro hold row' hrow'
    obtain ⟨row, hrow, himp⟩ := hrows row' hrow'
    exact himp (hold row hrow)
  cases d with
  | timedOut =>
    simp only [Delivery.env] at hs
    split at hs
    · obtain rfl := Option.some.inj hs
      refine hkeep rfl fun row' hrow' ↦ ?_
      obtain ⟨row, hrow, rfl⟩ := Option.map_eq_some_iff.mp hrow'
      refine ⟨row, hrow, fun hstatus ↦ ?_⟩
      rw [if_neg (by rw [hstatus]; decide), hstatus]
    · cases hs
  | enqueue | rerun =>
    simp only [Delivery.env] at hs
    split at hs
    · obtain rfl := Option.some.inj hs
      exact hkeep rfl fun row hrow ↦ ⟨row, hrow, id⟩
    · cases hs
  | answered | switch =>
    obtain rfl := Option.some.inj hs
    exact hkeep rfl fun row hrow ↦ ⟨row, hrow, id⟩
  | prune =>
    obtain rfl := Option.some.inj hs
    exact hkeep rfl fun _ hrow ↦ by cases hrow

theorem Inv.step {e : Event Nat Act Env} (h : Inv p) (hs : program.step p e = some q)
    (hok : Careful p e) : Inv q := by
  cases e with
  | spawn i attempt =>
    obtain ⟨hfree, rfl⟩ := step_spawn hs
    refine h.move (fun c hc ↦ ?_) (fun d hd hhand ↦ ?_) rfl (.inl rfl)
    · cases hfree.symm.trans hc
    · obtain rfl := Option.some.inj hd
      cases hhand
  | act i a =>
    obtain ⟨c, r, hc, hr, rfl⟩ := step_act hs
    exact h.act hc hr hok
  | abort i =>
    obtain ⟨c, hc, rfl⟩ := step_abort hs
    exact h.quiet hc (hok c hc) (by simp) rfl (.inl rfl)
  | env d =>
    obtain ⟨s, henv, rfl⟩ := step_env hs
    exact h.env henv

/-- In runs of the jobs of a delivery that keep to the condition, the message is posted at most
once, and the row of a message that was posted ends as delivered. -/
theorem agrees_of_careful {d : Option Destination} {es : List (Event Nat Act Env)}
    (h : Run program.step (fun p e _ ↦ Careful p e) (idle Call (dispatched d)) es p) :
    Agrees p := by
  refine Inv.agrees (h.invariant ?_ fun _ _ _ ht hs hok ↦ ht.step hs hok)
  exact ⟨Nat.zero_le _, fun _ _ _ _ hi ↦ (by cases hi), fun _ _ hi ↦ (by cases hi),
    fun hne ↦ absurd rfl hne⟩

/-! ## Three runs -/

/-- A job in the first slot, to the look-up. -/
def taken (attempt : Nat) : List (Event Nat Act Env) :=
  [.spawn 0 attempt, .act 0 .goesOn, .act 0 .goesOn]

def retried : List (Event Nat Act Env) :=
  [.env .enqueue] ++ taken 0 ++ [.act 0 (.refuses { retryable := true }), .act 0 .goesOn,
    .act 0 .goesOn, .act 0 .goesOn] ++ taken 1 ++ [.act 0 .posts, .act 0 .goesOn, .act 0 .goesOn]

def Act.isQuiet : Act → Bool
  | .fails _ | .losesAnswer _ => false
  | _ => true

def untroubled : Event Nat Act Env → Bool
  | .act _ a => a.isQuiet
  | .abort _ => false
  | _ => true

theorem careful_of_untroubled {e : Event Nat Act Env} (hfree : ∀ j, j ≠ 0 → p.calls j = none)
    (he : untroubled e = true) : Careful p e := by
  cases e with
  | spawn | env => trivial
  | abort => cases he
  | act i a =>
    refine fun c hc ↦ ⟨fun hpoint _ j d hd ↦ ?_, fun _ message ↦ ?_, fun err ↦ ?_⟩
    · have hzero : ∀ {k e}, p.calls k = some e → k = 0 := fun {k e} hk ↦ by
        by_contra hne
        cases (hfree k hne).symm.trans hk
      rw [hzero hd, ← hzero hc] at hd
      rw [← Option.some.inj (hc.symm.trans hd), hpoint]
      rfl
    · rintro rfl
      cases he
    · rintro rfl
      cases he

theorem retried_agrees : ∃ p,
    Run program.step (fun p e _ ↦ Careful p e) (idle Call (dispatched (some {}))) retried p ∧
    p.store.row = some { status := .delivered, attempt := 2 } ∧ Agrees p := by
  obtain ⟨p, hrun, hrow⟩ := Option.map_eq_some_iff.mp (show
    (execIf program.step (fun p e ↦ e.inFirst && untroubled e)
      (idle Call (dispatched (some {}))) retried).map (fun p ↦ p.store.row) =
      some (some { status := .delivered, attempt := 2 }) by decide +kernel)
  have hcareful : Run program.step (fun p e _ ↦ Careful p e) (idle Call (dispatched (some {})))
      retried p :=
    (run_of_inFirst hrun).mono fun _ _ _ h ↦ careful_of_untroubled h.1 h.2
  exact ⟨p, hcareful, hrow, agrees_of_careful hcareful⟩

/-- The message is posted and marked, and then the database fails when the health of the
destination is recorded: the row ends as failed. -/
def healthLost : List (Event Nat Act Env) :=
  [.env .enqueue] ++ taken 0 ++ [.act 0 .posts, .act 0 .goesOn, .act 0 (.fails "timeout"),
    .act 0 .goesOn, .act 0 .goesOn]

def diedUnmarked : List (Event Nat Act Env) :=
  [.env .enqueue] ++ taken 0 ++ [.act 0 .posts, .abort 0, .env (.rerun 0)] ++ taken 0 ++
    [.act 0 .posts, .act 0 .goesOn, .act 0 .goesOn]

theorem posted_yet_failed : (∃ p,
    Run program.step free (idle Call (dispatched (some {}))) healthLost p ∧ p.store.posts = 1 ∧
      p.store.queue = [] ∧ (p.store.row.map Row.status) = some .failed ∧ ¬Agrees p) ∧
    ∃ p, Run program.step free (idle Call (dispatched (some {}))) diedUnmarked p ∧
      p.store.posts = 2 ∧ ¬Agrees p := by
  constructor
  · obtain ⟨p, hrun, hend⟩ := Option.map_eq_some_iff.mp (show
      (execIf program.step (fun _ e ↦ e.inFirst && true) (idle Call (dispatched (some {})))
        healthLost).map (fun p ↦ (p.store.posts, p.store.queue, p.store.row.map Row.status,
          p.calls 0)) = some (1, [], some .failed, none) by decide +kernel)
    simp only [Prod.mk.injEq] at hend
    obtain ⟨hposts, hqueue, hrow, hcall⟩ := hend
    have hfree : ∀ j, j ≠ 0 → p.calls j = none := free_of_inFirst (fun _ _ ↦ rfl) hrun
    refine ⟨p, (run_of_execIf hrun).forget, hposts, hqueue, hrow, fun h ↦ ?_⟩
    obtain ⟨row, hrow, hstatus⟩ := Option.map_eq_some_iff.mp hrow
    refine (h.2 (by rw [hposts]; exact Nat.one_pos) (fun i ↦ ?_) row hrow).1 hstatus
    by_cases hi : i = 0
    · rw [hi, hcall]
    · exact hfree i hi
  · obtain ⟨p, hrun, hposts⟩ := exists_run_free (show
      (exec program.step (idle Call (dispatched (some {}))) diedUnmarked).map
        (fun p ↦ p.store.posts) = some 2 by decide +kernel)
    exact ⟨p, hrun, hposts, fun h ↦ absurd h.1 (by rw [hposts]; decide)⟩

end Shellius.Chat.Delivery
