import Mathlib.Algebra.Order.Ring.Int
import Shellius.Audit.Sink

/-!
# When a sink is switched off

What `runSink` and `runDigestSink` do to the health of a sink, whatever they deliver.  A run counts
from the row it was given.  As long as that count is the stored one when a failure is recorded, the
count is the number of failures since the last success, and a sink is switched off by its tenth
failure in a row, or by one that is permanent (`disabled_rightly`).
-/

namespace Shellius.Audit.Disabling

open Lib Lib.Program

/-- A sink is streamed by `runSink` or sent by `runDigestSink`. -/
inductive Kind
  | stream | digest

/-- The health of a sink in its row. -/
structure Health where
  isActive : Bool := true
  consecutiveFailures : Nat := 0
  backoffUntil : Option Int := none

/-- A delivery that is recorded: whether it switched the sink off, or else by how much it put the
sink off, and whether the destination had named that delay. -/
structure Outcome where
  failed : Bool
  permanent : Bool := false
  gaveUp : Bool := false
  named : Bool := false
  delay : Option Int := none
deriving DecidableEq

/-- The row, and what was recorded, the last first. -/
structure Store where
  now : Int := 0
  sink : Health := {}
  history : List Outcome := []

inductive Call
  | findDue (kind : Kind)
  | running (kind : Kind) (row : Health) (left : Nat)
  | commit (kind : Kind) (row : Health) (left : Nat)
  | backOff (kind : Kind) (row : Health) (permanent : Bool) (retryAfterMs : Option Int)

inductive Answer
  | goesOn
  | idle
  | delivered
  | refused (permanent : Bool) (retryAfterMs : Option Int)
  | fails

def recordSuccess (s : Store) : Store :=
  { s with
    sink := { s.sink with consecutiveFailures := 0, backoffUntil := none }
    history := { failed := false } :: s.history }

/-- The `catch` of both; only a streaming destination names a delay. -/
def recordFailure (s : Store) (kind : Kind) (row : Health) (permanent : Bool)
    (retryAfterMs : Option Int) : Store :=
  let failures := row.consecutiveFailures + 1
  let named := match kind with
    | .stream => retryAfterMs
    | .digest => none
  if permanent ∨ Sink.maxConsecutiveFailures ≤ failures then
    { s with
      sink := { s.sink with consecutiveFailures := failures, isActive := false }
      history := { failed := true, permanent := permanent, gaveUp := true } :: s.history }
  else
    let delay := named.getD (Sink.backoffFor failures)
    { s with
      sink := { s.sink with consecutiveFailures := failures, backoffUntil := some (s.now + delay) }
      history := { failed := true, named := named.isSome, delay := some delay } :: s.history }

/-- The batches of a run: `MAX_BATCHES_PER_RUN`, or the one of a digest. -/
def batches : Kind → Nat
  | .stream => 10
  | .digest => 1

def act (_ : Nat) (s : Store) (c : Call) (a : Answer) : Option (Store × Option Call) :=
  match c, a with
  | .findDue kind, .goesOn =>
    if s.sink.isActive ∧ s.sink.backoffUntil.all (· ≤ s.now) then
      some (s, some (.running kind s.sink (batches kind)))
    else some (s, none)
  | .running _ _ _, .idle | .running _ _ 0, .goesOn => some (s, none)
  | .running kind row (left + 1), .delivered => some (s, some (.commit kind row left))
  | .running kind row (_ + 1), .refused permanent retryAfterMs =>
    some (s, some (.backOff kind row permanent retryAfterMs))
  | .commit kind row left, .goesOn => some (recordSuccess s, some (.running kind row left))
  -- an error of the database ends up where a failed delivery does
  | .commit kind row _, .fails => some (s, some (.backOff kind row false none))
  | .backOff kind row permanent retryAfterMs, .goesOn =>
    some (recordFailure s kind row permanent retryAfterMs, none)
  | .findDue _, .fails | .running _ _ _, .fails | .backOff _ _ _ _, .fails => some (s, none)
  | _, _ => none

def program : Program Store Kind Call Answer Int where
  start := .findDue
  act := act
  env s now := if s.now ≤ now then some { s with now } else none

/-! ## What is asked of it -/

/-- The failures since the last success. -/
def streak (history : List Outcome) : List Outcome := history.takeWhile Outcome.failed

/-- An outcome after others: it switches the sink off as the tenth failure in a row, and puts it off
for no less than those of its streak did.  With `design`, a permanent failure may switch it off at
once, and a delay that the destination named does not count. -/
def Right (design : Bool) (o : Outcome) (history : List Outcome) : Prop :=
  (o.gaveUp = true → (design && o.permanent) = true ∨ o.failed = true ∧ 9 ≤ (streak history).length) ∧
    ∀ o' ∈ streak history, ∀ d ∈ o.delay, ∀ d' ∈ o'.delay,
      (design && (o.named || o'.named)) = true ∨ d' ≤ d

def Rightly (design : Bool) : List Outcome → Prop
  | [] => True
  | o :: history => Right design o history ∧ Rightly design history

/-- The sink was switched off by one of the outcomes, and each of them is right. -/
def Holds (design : Bool) (s : Store) : Prop :=
  (s.sink.isActive = false → ∃ o ∈ s.history, o.gaveUp = true) ∧ Rightly design s.history

/-- A failure is recorded by a run whose row counts as many failures as the stored one. -/
def Counted (p : Pool Store Call) : Event Kind Answer Int → Prop
  | .act i .goesOn => ∀ kind row permanent retryAfterMs,
      p.calls i = some (.backOff kind row permanent retryAfterMs) →
        row.consecutiveFailures = p.store.sink.consecutiveFailures
  | _ => True

/-! ## The invariant -/

/-- The stored count is that of the streak, whose own delays go up to the one of the count. -/
structure Inv (s : Store) : Prop where
  count : s.sink.consecutiveFailures = (streak s.history).length
  delays : ∀ o ∈ streak s.history, o.named = false →
    ∀ d ∈ o.delay, d ≤ Sink.backoffFor s.sink.consecutiveFailures
  holds : Holds true s

theorem backoffFor_mono {m n : Nat} (h : m ≤ n) : Sink.backoffFor m ≤ Sink.backoffFor n := by
  unfold Sink.backoffFor
  have hpow : (2 : Int) ^ (m - 1) ≤ 2 ^ (n - 1) :=
    pow_le_pow_right₀ (by decide) (Nat.sub_le_sub_right h 1)
  omega

variable {s : Store} {row : Health} {kind : Kind} {permanent : Bool} {retryAfterMs : Option Int}

theorem Inv.recordSuccess (h : Inv s) : Inv (recordSuccess s) :=
  ⟨rfl, fun _ ho ↦ absurd ho List.not_mem_nil,
    fun hoff ↦ (h.holds.1 hoff).imp fun _ ho ↦ ⟨List.mem_cons_of_mem _ ho.1, ho.2⟩,
    ⟨fun hgave ↦ (by cases hgave), fun _ _ _ hd ↦ (by cases hd)⟩, h.holds.2⟩

theorem Inv.recordFailure (h : Inv s)
    (hrow : row.consecutiveFailures = s.sink.consecutiveFailures) :
    Inv (recordFailure s kind row permanent retryAfterMs) := by
  have hdelays : ∀ o ∈ streak s.history, o.named = false → ∀ d ∈ o.delay,
      d ≤ Sink.backoffFor (row.consecutiveFailures + 1) := fun o ho hnamed d hd ↦
    (h.delays o ho hnamed d hd).trans (backoffFor_mono (hrow ▸ Nat.le_succ _))
  have hcount : row.consecutiveFailures + 1 = (streak s.history).length + 1 :=
    congrArg (· + 1) (hrow.trans h.count)
  unfold Disabling.recordFailure
  dsimp only
  split
  · rename_i hgive
    refine ⟨hcount, fun o ho hnamed d hd ↦ ?_, fun _ ↦ ⟨_, List.mem_cons_self, rfl⟩,
      ⟨fun _ ↦ ?_, fun _ _ _ hd ↦ (by cases hd)⟩, h.holds.2⟩
    · obtain rfl | ho := List.mem_cons.mp ho
      · cases hd
      · exact hdelays o ho hnamed d hd
    · obtain hpermanent | hten := hgive
      · exact .inl hpermanent
      · rw [hcount] at hten
        exact .inr ⟨rfl, Nat.le_of_succ_le_succ hten⟩
  · generalize (match kind with
      | .stream => retryAfterMs
      | .digest => none) = named
    have hown : named.isSome = false →
        named.getD (Sink.backoffFor (row.consecutiveFailures + 1)) =
          Sink.backoffFor (row.consecutiveFailures + 1) := by
      intro hnone
      cases named with
      | none => rfl
      | some delay => cases hnone
    refine ⟨hcount, fun o ho hnamed d hd ↦ ?_, fun hoff ↦ ?_,
      ⟨fun hgave ↦ (by cases hgave), fun o ho d hd d' hd' ↦ ?_⟩, h.holds.2⟩
    · obtain rfl | ho := List.mem_cons.mp ho
      · exact (Option.some.inj hd ▸ hown hnamed).le
      · exact hdelays o ho hnamed d hd
    · obtain ⟨o, ho, hgave⟩ := h.holds.1 hoff
      exact ⟨o, List.mem_cons_of_mem _ ho, hgave⟩
    · cases hnamed : named.isSome with
      | true => exact .inl rfl
      | false =>
        cases hnamed' : o.named with
        | true => exact .inl rfl
        | false =>
          refine .inr ((hdelays o ho hnamed' d' hd').trans ?_)
          rw [← hown hnamed]
          exact (Option.some.inj hd).le

theorem Inv.step {p q : Pool Store Call} {e : Event Kind Answer Int} (h : Inv p.store)
    (hs : program.step p e = some q) (hok : Counted p e) : Inv q.store := by
  cases e with
  | spawn i kind =>
    obtain ⟨-, rfl⟩ := step_spawn hs
    exact h
  | abort i =>
    obtain ⟨c, -, rfl⟩ := step_abort hs
    exact h
  | env now =>
    obtain ⟨s, henv, rfl⟩ := step_env hs
    simp only [program] at henv
    split at henv
    · obtain rfl := Option.some.inj henv
      exact ⟨h.count, h.delays, h.holds⟩
    · cases henv
  | act i a =>
    obtain ⟨c, r, hc, hr, rfl⟩ := step_act hs
    change act i p.store c a = some r at hr
    unfold act at hr
    split at hr
    case h_6 =>
      obtain rfl := Option.some.inj hr
      exact h.recordSuccess
    case h_8 =>
      obtain rfl := Option.some.inj hr
      exact h.recordFailure (hok _ _ _ _ hc)
    case h_1 => split at hr <;> obtain rfl := Option.some.inj hr <;> exact h
    case h_12 => cases hr
    all_goals
      obtain rfl := Option.some.inj hr
      exact h

/-- In runs in which failures are counted on from the stored count, a sink is switched off only by
its tenth failure in a row or a permanent one, and put off for no less each time, but for delays
that the destination names. -/
theorem disabled_rightly {p : Pool Store Call} {es : List (Event Kind Answer Int)}
    (h : Run program.step (fun p e _ ↦ Counted p e) (idle Call {}) es p) : Holds true p.store := by
  have hinv : Inv p.store := by
    refine h.invariant (I := fun p ↦ Inv p.store) ?_ fun _ _ _ ht hs hok ↦ ht.step hs hok
    exact ⟨rfl, fun _ ho ↦ absurd ho List.not_mem_nil, fun hoff ↦ (by cases hoff), trivial⟩
  exact hinv.holds

/-! ## Runs -/

def refusal (kind : Kind) (permanent : Bool) (retryAfterMs : Option Int) :
    List (Event Kind Answer Int) :=
  [.spawn 0 kind, .act 0 .goesOn, .act 0 (.refused permanent retryAfterMs), .act 0 .goesOn]

def countedFirst (p : Pool Store Call) : Event Kind Answer Int → Bool
  | .act 0 .goesOn =>
    match p.calls 0 with
    | some (.backOff _ row _ _) => row.consecutiveFailures = p.store.sink.consecutiveFailures
    | _ => true
  | .act _ .goesOn => false
  | _ => true

theorem counted_of_countedFirst {p : Pool Store Call} {e : Event Kind Answer Int}
    (h : countedFirst p e = true) : Counted p e := by
  unfold Counted
  split
  · rename_i i
    intro kind row permanent retryAfterMs hc
    cases i with
    | zero =>
      simp only [countedFirst, hc, decide_eq_true_eq] at h
      exact h
    | succ i => cases h
  · trivial

def tenRefusals : List (Event Kind Answer Int) :=
  (List.range 10).flatMap fun n ↦
    .env ((n : Int) * (60 * 60 * 1000)) :: refusal .stream false none

theorem tenRefusals_rightly : ∃ p,
    Run program.step (fun p e _ ↦ Counted p e) (idle Call {}) tenRefusals p ∧
      p.store.sink.isActive = false ∧ Holds true p.store := by
  obtain ⟨p, hrun, hoff⟩ := exists_run (show
    (execIf program.step countedFirst (idle Call {}) tenRefusals).map
      (fun p ↦ p.store.sink.isActive) = some false by decide +kernel)
  have hcounted := hrun.mono fun _ _ _ h ↦ counted_of_countedFirst h
  exact ⟨p, hcounted, hoff, disabled_rightly hcounted⟩

/-- A permanent failure switches a sink off at once, and a delay that the destination named is
followed by a shorter one. -/
theorem permanent_disables_at_once :
    (∃ p, Run program.step free (idle Call {}) (refusal .stream true none) p ∧
      p.store.sink.isActive = false ∧ p.store.history.length = 1 ∧ ¬Holds false p.store) ∧
    ∃ p, Run program.step free (idle Call {})
        (refusal .stream false (some 600000) ++ [.env 600000] ++ refusal .stream false none) p ∧
      p.store.history.map Outcome.delay = [some 60000, some 600000] ∧ ¬Holds false p.store := by
  constructor
  · obtain ⟨p, hrun, hend⟩ := exists_run_free (show
      (exec program.step (idle Call {}) (refusal .stream true none)).map
        (fun p ↦ (p.store.sink.isActive, p.store.history)) =
        some (false, [{ failed := true, permanent := true, gaveUp := true }]) by decide +kernel)
    obtain ⟨hoff, hhistory⟩ := Prod.mk.inj hend
    refine ⟨p, hrun, hoff, by rw [hhistory]; rfl, fun h ↦ ?_⟩
    rw [Holds, hhistory] at h
    obtain hdesign | ⟨-, hnine⟩ := h.2.1.1 rfl
    · cases hdesign
    · exact absurd hnine (by decide)
  · obtain ⟨p, hrun, hhistory⟩ := exists_run_free (show
      (exec program.step (idle Call {})
        (refusal .stream false (some 600000) ++ [.env 600000] ++ refusal .stream false none)).map
        (fun p ↦ p.store.history) = some [{ failed := true, delay := some 60000 },
          { failed := true, named := true, delay := some 600000 }] by decide +kernel)
    refine ⟨p, hrun, by rw [hhistory]; rfl, fun h ↦ ?_⟩
    rw [Holds, hhistory] at h
    obtain hdesign | hle := h.2.1.2 _ List.mem_cons_self _ rfl _ rfl
    · cases hdesign
    · exact absurd hle (by decide)

end Shellius.Audit.Disabling
