import Mathlib.Logic.Function.Basic
import Mathlib.Tactic.TypeStar

/-!
# Runs, and pools of interleaved calls

A service handles many calls at once against one store.  Each call is a small
program whose database round trips are atomic; between two round trips of one
call any number of round trips of the others may happen, time may pass, and the
process serving the call may die.

* `Run step ok s es t` is a run of an event-labelled machine in which every step
  taken satisfies `ok`.  Taking `ok` to be `free` gives all runs; taking it to be
  a side condition on the steps gives the runs that respect the condition.
* `Program` is the small program of one call, and `Program.step` the machine
  that interleaves any number of them over a shared store (`Pool`).
* `Program.Keeps` is the proof rule: an invariant of the store together with an
  assertion about each call in flight, kept by the call that moves and not
  disturbed in the calls that do not.
-/

universe u v

namespace Shellius.Lib

/-! ## Runs -/

section Run

variable {σ : Type u} {ε : Type v}

/-- A run from `s` along the events `es`, every step of which satisfies `ok`. -/
inductive Run (step : σ → ε → Option σ) (ok : σ → ε → σ → Prop) (s : σ) : List ε → σ → Prop
  | /-- Nothing has happened yet. -/
    nil : Run step ok s [] s
  | /-- One more event. -/
    snoc {es : List ε} {t u : σ} {e : ε} : Run step ok s es t → step t e = some u → ok t e u →
      Run step ok s (es ++ [e]) u

/-- The condition every step satisfies. -/
def free : σ → ε → σ → Prop := fun _ _ _ ↦ True

variable {step : σ → ε → Option σ} {ok ok' : σ → ε → σ → Prop} {s t : σ} {es : List ε}

namespace Run

theorem single {e : ε} (h : step s e = some t) (hok : ok s e t) : Run step ok s [e] t :=
  Run.nil.snoc h hok

theorem trans {u : σ} {fs : List ε} (h : Run step ok s es t) (h' : Run step ok t fs u) :
    Run step ok s (es ++ fs) u := by
  induction h' with
  | nil => simpa using h
  | snoc _ hs hok ih => rw [← List.append_assoc]; exact ih.snoc hs hok

theorem invariant {I : σ → Prop} (h : Run step ok s es t) (h₀ : I s)
    (hstep : ∀ t e u, I t → step t e = some u → ok t e u → I u) : I t := by
  induction h with
  | nil => exact h₀
  | snoc _ hs hok ih => exact hstep _ _ _ ih hs hok

theorem mono_of_invariant {I : σ → Prop} (h : Run step ok s es t) (h₀ : I s)
    (hstep : ∀ t e u, I t → step t e = some u → ok t e u → I u ∧ ok' t e u) :
    Run step ok' s es t := by
  have key : I t ∧ Run step ok' s es t := by
    induction h with
    | nil => exact ⟨h₀, .nil⟩
    | snoc _ hs hok ih =>
      obtain ⟨hI, hok'⟩ := hstep _ _ _ ih.1 hs hok
      exact ⟨hI, ih.2.snoc hs hok'⟩
  exact key.2

theorem mono (h : Run step ok s es t) (hok : ∀ t e u, ok t e u → ok' t e u) :
    Run step ok' s es t :=
  h.mono_of_invariant (I := fun _ ↦ True) trivial fun _ _ _ _ _ h ↦ ⟨trivial, hok _ _ _ h⟩

theorem forget (h : Run step ok s es t) : Run step free s es t := h.mono fun _ _ _ _ ↦ trivial

end Run

/-- Execute a list of events, checking a condition before each; `none` when one
of them is not possible or fails the check. -/
def execIf (step : σ → ε → Option σ) (check : σ → ε → Bool) : σ → List ε → Option σ
  | s, [] => some s
  | s, e :: es => if check s e then (step s e).bind fun t ↦ execIf step check t es else none

theorem run_of_execIf {check : σ → ε → Bool} (h : execIf step check s es = some t) :
    Run step (fun s e _ ↦ check s e = true) s es t := by
  induction es generalizing s with
  | nil => obtain rfl := Option.some.inj h; exact .nil
  | cons e es ih =>
    simp only [execIf] at h
    split at h
    · rename_i hc
      obtain ⟨u, hu, h⟩ := Option.bind_eq_some_iff.mp h
      exact (Run.single hu hc).trans (ih h)
    · cases h

/-- Execute a list of events. -/
def exec (step : σ → ε → Option σ) : σ → List ε → Option σ := execIf step fun _ _ ↦ true

theorem run_of_exec (h : exec step s es = some t) : Run step free s es t := (run_of_execIf h).forget

/-- What an execution shows of the state it ends in is true of a run. -/
theorem exists_run {α : Type*} {check : σ → ε → Bool} {f : σ → α} {a : α}
    (h : (execIf step check s es).map f = some a) :
    ∃ t, Run step (fun s e _ ↦ check s e = true) s es t ∧ f t = a := by
  obtain ⟨t, ht, hf⟩ := Option.map_eq_some_iff.mp h
  exact ⟨t, run_of_execIf ht, hf⟩

theorem exists_run_free {α : Type*} {f : σ → α} {a : α} (h : (exec step s es).map f = some a) :
    ∃ t, Run step free s es t ∧ f t = a := by
  obtain ⟨t, hrun, hf⟩ := exists_run h
  exact ⟨t, hrun.forget, hf⟩

end Run

/-! ## Pools of calls -/

/-- A shared store together with the calls in flight, by slot. -/
structure Pool (σ : Type*) (κ : Type*) where
  /-- The shared store. -/
  store : σ
  /-- What each slot is doing; `none` is a free slot. -/
  calls : Nat → Option κ

/-- One thing that can happen in a pool. -/
inductive Event (ι : Type*) (ε : Type*) (δ : Type*)
  | /-- A call begins in a free slot. -/
    spawn (i : Nat) (a : ι)
  | /-- The call in slot `i` takes its next atomic step. -/
    act (i : Nat) (e : ε)
  | /-- The call in slot `i` dies. -/
    abort (i : Nat)
  | /-- Something outside the calls happens to the store. -/
    env (d : δ)

/-- Nothing happens in any slot but the first. -/
def Event.inFirst {ι : Type*} {ε : Type*} {δ : Type*} : Event ι ε δ → Bool
  | .spawn i _ | .act i _ | .abort i => i = 0
  | .env _ => true

/-- The program of one call over a store: how it begins, its atomic steps, what
its death leaves behind, and what the environment does to the store meanwhile. -/
structure Program (σ : Type*) (ι : Type*) (κ : Type*) (ε : Type*) (δ : Type*) where
  /-- The local state a call begins in. -/
  start : ι → κ
  /-- The next atomic step of the call in the given slot; the local state
  `none` afterwards means that the call has returned. -/
  act : Nat → σ → κ → ε → Option (σ × Option κ)
  /-- The store after the call in the given slot died. -/
  abort : Nat → σ → κ → σ := fun _ s _ ↦ s
  /-- What the environment does. -/
  env : σ → δ → Option σ

namespace Program

variable {σ ι κ ε δ : Type*} (P : Program σ ι κ ε δ)

/-- The interleaving machine. -/
def step (p : Pool σ κ) : Event ι ε δ → Option (Pool σ κ)
  | .spawn i a =>
    match p.calls i with
    | none => some ⟨p.store, Function.update p.calls i (some (P.start a))⟩
    | some _ => none
  | .act i e =>
    match p.calls i with
    | none => none
    | some k => (P.act i p.store k e).map fun r ↦ ⟨r.1, Function.update p.calls i r.2⟩
  | .abort i =>
    match p.calls i with
    | none => none
    | some k => some ⟨P.abort i p.store k, Function.update p.calls i none⟩
  | .env d => (P.env p.store d).map fun s ↦ ⟨s, p.calls⟩

/-- A pool with no call in flight. -/
def idle (κ : Type*) (s : σ) : Pool σ κ := ⟨s, fun _ ↦ none⟩

variable {P} {p q : Pool σ κ} {i : Nat}

theorem step_spawn {a : ι} (h : P.step p (.spawn i a) = some q) :
    p.calls i = none ∧ q = ⟨p.store, Function.update p.calls i (some (P.start a))⟩ := by
  cases hk : p.calls i with
  | none => exact ⟨rfl, by simpa [step, hk] using h.symm⟩
  | some k => simp [step, hk] at h

theorem step_act {e : ε} (h : P.step p (.act i e) = some q) :
    ∃ k r, p.calls i = some k ∧ P.act i p.store k e = some r ∧
      q = ⟨r.1, Function.update p.calls i r.2⟩ := by
  cases hk : p.calls i with
  | none => simp [step, hk] at h
  | some k =>
    simp only [step, hk] at h
    obtain ⟨r, hr, rfl⟩ := Option.map_eq_some_iff.mp h
    exact ⟨k, r, rfl, hr, rfl⟩

theorem step_abort (h : P.step p (.abort i) = some q) :
    ∃ k, p.calls i = some k ∧ q = ⟨P.abort i p.store k, Function.update p.calls i none⟩ := by
  cases hk : p.calls i with
  | none => simp [step, hk] at h
  | some k => exact ⟨k, rfl, by simpa [step, hk] using h.symm⟩

theorem step_env {d : δ} (h : P.step p (.env d) = some q) :
    ∃ s, P.env p.store d = some s ∧ q = ⟨s, p.calls⟩ := by
  obtain ⟨s, hs, rfl⟩ := Option.map_eq_some_iff.mp h
  exact ⟨s, hs, rfl⟩

/-! ### A call on its own -/

/-- The call in slot `i` goes from a local state to its return along some
events, with nothing in between. -/
inductive Solo (P : Program σ ι κ ε δ) (i : Nat) : σ → κ → List ε → σ → Prop
  | /-- The last step. -/
    ret {s s' : σ} {k : κ} {e : ε} : P.act i s k e = some (s', none) → Solo P i s k [e] s'
  | /-- A step before others. -/
    step {s s' t : σ} {k k' : κ} {e : ε} {es : List ε} : P.act i s k e = some (s', some k') →
      Solo P i s' k' es t → Solo P i s k (e :: es) t

theorem Solo.run {s t : σ} {k : κ} {es : List ε} (h : Solo P i s k es t) (hs : p.store = s)
    (hk : p.calls i = some k) :
    Run P.step free p (es.map (.act i)) ⟨t, Function.update p.calls i none⟩ := by
  induction h generalizing p with
  | ret hact =>
    subst hs
    exact .single (by simp [Program.step, hk, hact]) trivial
  | @step _ s' _ _ k' e _ hact _ ih =>
    subst hs
    have hone : P.step p (.act i e) = some ⟨s', Function.update p.calls i (some k')⟩ := by
      simp [Program.step, hk, hact]
    have hrest := ih (p := ⟨s', Function.update p.calls i (some k')⟩) rfl (by simp)
    rw [Function.update_idem] at hrest
    exact (Run.single hone trivial).trans hrest

/-- Left alone, the call in slot `i` returns and leaves `t`. -/
def Ends (P : Program σ ι κ ε δ) (i : Nat) (s : σ) (k : κ) (t : σ) : Prop :=
  ∃ es, P.Solo i s k es t

theorem ends_ret {s t : σ} {k : κ} {e : ε} (h : P.act i s k e = some (t, none)) :
    Ends P i s k t := ⟨[e], .ret h⟩

theorem Ends.step {s s' t : σ} {k k' : κ} {e : ε} (h : P.act i s k e = some (s', some k'))
    (hend : Ends P i s' k' t) : Ends P i s k t := by
  obtain ⟨es, hsolo⟩ := hend
  exact ⟨e :: es, .step h hsolo⟩

/-! ### A call from its start to its return -/

/-- Another step leaves the call in slot `i` where it is, unless it dies. -/
theorem calls_of_step {e : Event ι ε δ} {k : κ} (hk : p.calls i = some k)
    (hs : P.step p e = some q) :
    (∃ e', e = .act i e') ∨ e = .abort i ∧ q.calls i = none ∨ q.calls i = some k := by
  cases e with
  | spawn j a =>
    obtain ⟨hfree, rfl⟩ := step_spawn hs
    have hij : i ≠ j := by
      rintro rfl
      cases hk.symm.trans hfree
    exact .inr (.inr ((Function.update_of_ne hij ..).trans hk))
  | act j e =>
    by_cases hij : i = j
    · subst hij
      exact .inl ⟨e, rfl⟩
    · obtain ⟨l, r, -, -, rfl⟩ := step_act hs
      exact .inr (.inr ((Function.update_of_ne hij ..).trans hk))
  | abort j =>
    obtain ⟨l, -, rfl⟩ := step_abort hs
    by_cases hij : i = j
    · subst hij
      exact .inr (.inl ⟨rfl, Function.update_self ..⟩)
    · exact .inr (.inr ((Function.update_of_ne hij ..).trans hk))
  | env d =>
    obtain ⟨s, -, rfl⟩ := step_env hs
    exact .inr (.inr hk)

/-- The call `a` begins in slot `i` and returns with the step `e`, and meanwhile the others go
on. -/
inductive Served (P : Program σ ι κ ε δ) (ok : Pool σ κ → Event ι ε δ → Pool σ κ → Prop) (i : Nat)
    (a : ι) (e : ε) (p q : Pool σ κ) : Prop
  | intro {p₁ p₂ : Pool σ κ} {es : List (Event ι ε δ)} : P.step p (.spawn i a) = some p₁ →
      ok p (.spawn i a) p₁ →
      Run P.step (fun t e u ↦ ok t e u ∧ (t.calls i).isSome = true) p₁ es p₂ →
      P.step p₂ (.act i e) = some q → ok p₂ (.act i e) q → q.calls i = none → Served P ok i a e p q

theorem Served.invariant {ok : Pool σ κ → Event ι ε δ → Pool σ κ → Prop} {a : ι} {e : ε}
    {J : Pool σ κ → Prop} (h : Served P ok i a e p q)
    (hspawn : ∀ t, P.step p (.spawn i a) = some t → ok p (.spawn i a) t → J t)
    (hstep : ∀ t e u, J t → P.step t e = some u → ok t e u → (t.calls i).isSome = true → J u) :
    ∃ t, J t ∧ P.step t (.act i e) = some q ∧ ok t (.act i e) q ∧ q.calls i = none := by
  cases h with
  | intro hs hok hr hlast hoklast hret =>
    exact ⟨_, hr.invariant (hspawn _ hs hok) fun t e u ht hs hok ↦ hstep t e u ht hs hok.1 hok.2,
      hlast, hoklast, hret⟩

theorem served_of_execIf {check : Pool σ κ → Event ι ε δ → Bool} {a : ι} {e : ε}
    {p₁ p₂ : Pool σ κ} {es : List (Event ι ε δ)}
    (hspawn : execIf P.step check p [.spawn i a] = some p₁)
    (hrun : execIf P.step (fun t e ↦ check t e && (t.calls i).isSome) p₁ es = some p₂)
    (hlast : execIf P.step check p₂ [.act i e] = some q) (hret : q.calls i = none) :
    Served P (fun t e _ ↦ check t e = true) i a e p q := by
  have hone : ∀ {s t : Pool σ κ} {d : Event ι ε δ}, execIf P.step check s [d] = some t →
      P.step s d = some t ∧ check s d = true := by
    intro s t d h
    simp only [execIf] at h
    split at h
    · rename_i hd
      obtain ⟨u, hu, h⟩ := Option.bind_eq_some_iff.mp h
      obtain rfl := Option.some.inj h
      exact ⟨hu, hd⟩
    · cases h
  obtain ⟨hs, hok⟩ := hone hspawn
  obtain ⟨hl, hokl⟩ := hone hlast
  exact .intro hs hok ((run_of_execIf hrun).mono fun _ _ _ h ↦ Bool.and_eq_true_iff.mp h) hl hokl hret

/-! ### One call at a time -/

theorem calls_of_inFirst {e : Event ι ε δ} (h : ∀ j, j ≠ 0 → p.calls j = none)
    (hs : P.step p e = some q) (he : e.inFirst = true) : ∀ j, j ≠ 0 → q.calls j = none := by
  intro j hj
  cases e with
  | spawn i a =>
    obtain rfl : i = 0 := of_decide_eq_true he
    obtain ⟨-, rfl⟩ := step_spawn hs
    simpa [hj] using h j hj
  | act i e =>
    obtain rfl : i = 0 := of_decide_eq_true he
    obtain ⟨k, r, -, -, rfl⟩ := step_act hs
    simpa [hj] using h j hj
  | abort i =>
    obtain rfl : i = 0 := of_decide_eq_true he
    obtain ⟨k, -, rfl⟩ := step_abort hs
    simpa [hj] using h j hj
  | env d =>
    obtain ⟨s, -, rfl⟩ := step_env hs
    exact h j hj

theorem run_inFirst {es : List (Event ι ε δ)} {check : Pool σ κ → Event ι ε δ → Bool}
    (hfree : ∀ j, j ≠ 0 → p.calls j = none)
    (h : execIf P.step (fun p e ↦ e.inFirst && check p e) p es = some q) :
    Run P.step (fun p e _ ↦ (∀ j, j ≠ 0 → p.calls j = none) ∧ check p e = true) p es q :=
  (run_of_execIf h).mono_of_invariant (I := fun p ↦ ∀ j, j ≠ 0 → p.calls j = none)
    hfree fun _ _ _ hp hs he ↦ by
      obtain ⟨hfirst, hcheck⟩ := Bool.and_eq_true_iff.mp he
      exact ⟨calls_of_inFirst hp hs hfirst, hp, hcheck⟩

theorem free_of_inFirst {es : List (Event ι ε δ)} {check : Pool σ κ → Event ι ε δ → Bool}
    (hfree : ∀ j, j ≠ 0 → p.calls j = none)
    (h : execIf P.step (fun p e ↦ e.inFirst && check p e) p es = some q) :
    ∀ j, j ≠ 0 → q.calls j = none :=
  (run_of_execIf h).invariant (I := fun p ↦ ∀ j, j ≠ 0 → p.calls j = none) hfree
    fun _ _ _ hp hs he ↦ calls_of_inFirst hp hs (Bool.and_eq_true_iff.mp he).1

theorem run_of_inFirst {s : σ} {es : List (Event ι ε δ)} {check : Pool σ κ → Event ι ε δ → Bool}
    (h : execIf P.step (fun p e ↦ e.inFirst && check p e) (idle κ s) es = some p) :
    Run P.step (fun p e _ ↦ (∀ j, j ≠ 0 → p.calls j = none) ∧ check p e = true) (idle κ s) es p :=
  run_inFirst (fun _ _ ↦ rfl) h

/-! ### Environments -/

/-- The program in an environment that does only some things. -/
def inEnv (P : Program σ ι κ ε δ) (good : δ → Bool) : Program σ ι κ ε δ :=
  { P with env := fun s d ↦ if good d then P.env s d else none }

theorem step_inEnv {good : δ → Bool} {e : Event ι ε δ} (hgood : ∀ d, e = .env d → good d = true) :
    (P.inEnv good).step p e = P.step p e := by
  cases e with
  | env d =>
    have henv : (P.inEnv good).env p.store d = P.env p.store d := if_pos (hgood d rfl)
    simp only [step, henv]
  | spawn | act | abort => rfl

theorem run_inEnv {good : δ → Bool} {ok : Pool σ κ → Event ι ε δ → Pool σ κ → Prop}
    {es : List (Event ι ε δ)} (hgood : ∀ p d q, ok p (.env d) q → good d = true)
    (h : Run P.step ok p es q) : Run (P.inEnv good).step ok p es q := by
  induction h with
  | nil => exact .nil
  | snoc _ hs hok ih =>
    refine ih.snoc ?_ hok
    rw [step_inEnv]
    · exact hs
    · rintro d rfl
      exact hgood _ _ _ hok

/-! ### The proof rule -/

/-- The store satisfies `I` and every call in flight satisfies `J`. -/
def Holds (I : σ → Prop) (J : σ → Nat → κ → Prop) (p : Pool σ κ) : Prop :=
  I p.store ∧ ∀ i k, p.calls i = some k → J p.store i k

theorem holds_idle {I : σ → Prop} {J : σ → Nat → κ → Prop} {s : σ} (h : I s) :
    Holds I J (idle κ s) := ⟨h, fun _ _ hk ↦ by simp [idle] at hk⟩

variable (P)

/-- The obligations under which `I` and `J` survive every step that satisfies
`ok`: a call that begins satisfies `J`; a call that moves keeps `I`, satisfies
`J` afterwards and does not falsify it for the others; nor does a death or the
environment. -/
structure Keeps (ok : Pool σ κ → Event ι ε δ → Pool σ κ → Prop) (I : σ → Prop)
    (J : σ → Nat → κ → Prop) : Prop where
  /-- A call that begins. -/
  spawn : ∀ s i a, I s → J s i (P.start a)
  /-- A call that moves. -/
  act : ∀ (p : Pool σ κ) i k e s' k', Holds I J p → p.calls i = some k →
    P.act i p.store k e = some (s', k') →
    ok p (.act i e) ⟨s', Function.update p.calls i k'⟩ →
    I s' ∧ (∀ l, k' = some l → J s' i l) ∧
      ∀ j l, j ≠ i → p.calls j = some l → J s' j l
  /-- A call that dies. -/
  abort : ∀ (p : Pool σ κ) i k, Holds I J p → p.calls i = some k →
    I (P.abort i p.store k) ∧ ∀ j l, j ≠ i → p.calls j = some l → J (P.abort i p.store k) j l
  /-- The environment. -/
  env : ∀ s d s', I s → P.env s d = some s' → I s' ∧ ∀ j l, J s j l → J s' j l

variable {P} {ok : Pool σ κ → Event ι ε δ → Pool σ κ → Prop} {I : σ → Prop} {J : σ → Nat → κ → Prop}

theorem Keeps.step (h : P.Keeps ok I J) {e : Event ι ε δ} (hp : Holds I J p)
    (hs : P.step p e = some q) (hok : ok p e q) : Holds I J q := by
  cases e with
  | spawn i a =>
    obtain ⟨-, rfl⟩ := step_spawn hs
    refine ⟨hp.1, fun j l hj ↦ ?_⟩
    by_cases hij : j = i
    · subst hij
      obtain rfl : P.start a = l := by simpa using hj
      exact h.spawn _ _ _ hp.1
    · exact hp.2 j l (by simpa [Function.update_of_ne hij] using hj)
  | act i e =>
    obtain ⟨k, ⟨s', k'⟩, hk, hr, rfl⟩ := step_act hs
    obtain ⟨hI, hJ, hother⟩ := h.act p i k e s' k' hp hk hr hok
    refine ⟨hI, fun j l hj ↦ ?_⟩
    by_cases hij : j = i
    · subst hij; exact hJ l (by simpa using hj)
    · exact hother j l hij (by simpa [Function.update_of_ne hij] using hj)
  | abort i =>
    obtain ⟨k, hk, rfl⟩ := step_abort hs
    obtain ⟨hI, hother⟩ := h.abort p i k hp hk
    refine ⟨hI, fun j l hj ↦ ?_⟩
    by_cases hij : j = i
    · subst hij; simp at hj
    · exact hother j l hij (by simpa [Function.update_of_ne hij] using hj)
  | env d =>
    obtain ⟨s', hs', rfl⟩ := step_env hs
    obtain ⟨hI, hJ⟩ := h.env _ _ _ hp.1 hs'
    exact ⟨hI, fun j l hj ↦ hJ j l (hp.2 j l hj)⟩

/-- The invariant holds at the end of every run that respects `ok`. -/
theorem Keeps.run (h : P.Keeps ok I J) {es : List (Event ι ε δ)} (hp : Holds I J p)
    (hr : Run P.step ok p es q) : Holds I J q :=
  hr.invariant hp fun _ _ _ ht hs hok ↦ h.step ht hs hok

end Program

end Shellius.Lib
