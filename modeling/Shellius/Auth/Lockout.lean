import Shellius.Lib.Pool
import Shellius.Lib.Table
import Shellius.Schema

/-!
# Failed sign-ins

`authService.login` and its helpers `recordFailedLogin` and `resetFailedLogin`,
each database step and each comparison of a password on its own.

An e-mail address may belong to an account in several organizations.  `login`
reads them all, splits off those that may not use a password, and compares the
password with the others one by one.  The counter it writes for an account is
the one it read, plus one, and it clears counter and lock of the account it lets
in without looking at them again.

The failures of an account are those since it was last let in or unlocked; those
before the end of a lock that is over are paid for, and do not count.
-/

namespace Shellius.Lockout

open Lib

/-! ## The functions -/

/-- `config.auth` -/
structure Config where
  lockoutThreshold : Nat := 5
  /-- `lockoutMinutes`, in milliseconds. -/
  lockoutMs : Int := 15 * 60 * 1000
  threshold_pos : 0 < lockoutThreshold := by decide
  lockout_pos : 0 < lockoutMs := by decide
  /-- `bcrypt.compare` of a password with a hash -/
  compare : String → String → Bool

/-- `User`, as far as a password sign-in is concerned. -/
structure Account where
  id : Id
  email : String
  status : UserStatus := .active
  kind : UserKind := .human
  passwordHash : Option String
  failedLoginCount : Nat := 0
  lockedUntil : Option Millis := none

def isLocked (now : Millis) (user : Account) : Bool := user.lockedUntil.any fun t ↦ now < t

/-- `recordFailedLogin`, of the account as it was read, on the row as it is. -/
def recordFailedLogin (cfg : Config) (now : Millis) (user row : Account) : Account :=
  let newCount := user.failedLoginCount + 1
  if cfg.lockoutThreshold ≤ newCount then
    { row with failedLoginCount := 0, lockedUntil := some (now + cfg.lockoutMs) }
  else { row with failedLoginCount := newCount }

/-- Neither failures nor a lock. -/
def unlocked (row : Account) : Account := { row with failedLoginCount := 0, lockedUntil := none }

/-- `resetFailedLogin`, likewise. -/
def resetFailedLogin (user row : Account) : Account :=
  if user.failedLoginCount ≠ 0 ∨ user.lockedUntil ≠ none then unlocked row else row

/-! ## The program -/

/-- A sign-in to an account failed. -/
structure Failure where
  userId : Id
  time : Millis

/-- A password was accepted. -/
structure Success where
  userId : Id
  failures : Nat
  /-- Whether the account was locked. -/
  locked : Bool

/-- The accounts and the clock, and what has happened to each account. -/
structure Store where
  now : Millis
  accounts : List Account
  /-- The accounts for which `passwordSignInBlocked` holds. -/
  ssoBlocked : List Id := []
  drawnIds : List Id
  /-- The failures since an account was last let in or unlocked. -/
  failures : List Failure := []
  successes : List Success := []

inductive Call
  | /-- It reads the accounts of the address, which is trimmed and in lower case. -/
    findCandidates (email password : String)
  | split (rest withPassword : List Account) (ssoBlocked : Option Account) (password : String)
  | refuse (ssoBlocked : Account)
  | compare (candidate : Account) (rest compared : List Account) (anyLocked : Bool)
      (password : String)
  | record (rest : List Account)
  | reset (matched : Account)

/-- Where a comparison leads. -/
inductive Verdict
  | goOn (k : Call)
  | /-- The call fails, and no failure is recorded for the accounts whose password it
    compared in vain. -/
    fail (compared : List Account)

section

variable (cfg : Config) (s : Store)

def failuresOf (a : Account) : Nat :=
  s.failures.countP fun f ↦ f.userId = a.id ∧ a.lockedUntil.all fun t ↦ t ≤ f.time

/-- The loop over the candidates goes on with the next one, or is over. -/
def compareNext (rest compared : List Account) (anyLocked : Bool) (password : String) : Verdict :=
  match rest with
  | candidate :: rest => .goOn (.compare candidate rest compared anyLocked password)
  | [] => if anyLocked then .fail compared else .goOn (.record compared)

def compareStep (candidate : Account) (rest compared : List Account) (anyLocked : Bool)
    (password : String) : Verdict :=
  if isLocked s.now candidate then compareNext rest compared true password
  else if candidate.passwordHash.any (cfg.compare password) then
    if candidate.status = .active then .goOn (.reset candidate) else .fail compared
  else compareNext rest (compared ++ [candidate]) anyLocked password

/-- The accounts whose failure this step leaves unrecorded. -/
def unrecorded : Call → List Account
  | .compare candidate rest compared anyLocked password =>
    match compareStep cfg s candidate rest compared anyLocked password with
    | .goOn _ => []
    | .fail compared => compared
  | _ => []

/-- The failures are on record for a row that is there. -/
def recordStep (user : Account) : Store :=
  if (lookup Account.id user.id s.accounts).isSome then
    { s with
      accounts := modify Account.id user.id (recordFailedLogin cfg s.now user) s.accounts
      failures := ⟨user.id, s.now⟩ :: s.failures }
  else s

def resetStep (matched : Account) : Store :=
  match lookup Account.id matched.id s.accounts with
  | none => s
  | some row =>
    { s with
      accounts := modify Account.id matched.id (resetFailedLogin matched) s.accounts
      failures := s.failures.filter fun f ↦ f.userId ≠ matched.id
      successes := ⟨matched.id, failuresOf s row, isLocked s.now row⟩ :: s.successes }

/-- The store after a step of a call; `n` is the one of the failures to be recorded
that happens to come next. -/
def effect (n : Nat) : Call → Store
  | .record rest =>
    match rest[n]? with
    | none => s
    | some user => recordStep cfg s user
  | .reset matched => resetStep s matched
  | k => { s with failures := (unrecorded cfg s k).map (fun a ↦ ⟨a.id, s.now⟩) ++ s.failures }

def splitNext (rest withPassword : List Account) (ssoBlocked : Option Account)
    (password : String) : Option Call :=
  match rest, withPassword with
  | _ :: _, _ => some (.split rest withPassword ssoBlocked password)
  | [], candidate :: rest => some (.compare candidate rest [] false password)
  | [], [] => ssoBlocked.map .refuse

def next (n : Nat) : Call → Option Call
  | .findCandidates email password =>
    match s.accounts.filter fun a ↦ a.email = email ∧ a.status ≠ .deleted ∧ a.kind = .human ∧
      a.passwordHash.isSome with
    | [] => none
    | candidates => some (.split candidates [] none password)
  | .split [] withPassword ssoBlocked password => splitNext [] withPassword ssoBlocked password
  | .split (c :: rest) withPassword ssoBlocked password =>
    if c.id ∈ s.ssoBlocked then splitNext rest withPassword (ssoBlocked.or (some c)) password
    else splitNext rest (withPassword ++ [c]) ssoBlocked password
  | .refuse ssoBlocked => if isLocked s.now ssoBlocked then none else some (.record [ssoBlocked])
  | .compare candidate rest compared anyLocked password =>
    match compareStep cfg s candidate rest compared anyLocked password with
    | .goOn k => some k
    | .fail _ => none
  | .record rest => if rest.eraseIdx n = [] then none else some (.record (rest.eraseIdx n))
  | .reset _ => none

inductive Change
  | tick (now : Millis)
  | /-- `unlockUser` -/
    unlock (userId : Id)
  | accounts (accounts : List Account)
  | /-- Organizations come to require single sign-on, or cease to, and roles change. -/
    ssoBlocked (ids : List Id)

def Carries (a : Account) : Prop :=
  (∃ b ∈ s.accounts, b.id = a.id ∧ b.failedLoginCount = a.failedLoginCount ∧
    b.lockedUntil = a.lockedUntil) ∨
  a.id ∉ s.drawnIds ∧ a.failedLoginCount = 0 ∧ a.lockedUntil = none

instance (a : Account) : Decidable (Carries s a) := inferInstanceAs (Decidable (_ ∨ _))

def program : Program Store (String × String) Call Nat Change where
  start a := .findCandidates a.1 a.2
  act _ s k n := some (effect cfg s n k, next cfg s n k)
  env s
    | .tick now => if s.now ≤ now then some { s with now } else none
    | .unlock userId =>
      some { s with
        accounts := modify Account.id userId unlocked s.accounts
        failures := s.failures.filter fun f ↦ f.userId ≠ userId }
    | .accounts accounts =>
      if ∀ a ∈ accounts, Carries s a then
        some { s with accounts, drawnIds := accounts.map Account.id ++ s.drawnIds }
      else none
    | .ssoBlocked ids => some { s with ssoBlocked := ids }

/-- Recording a failure of `user` on the row `a` loses none: the row is locked or
will be, or it has no more failures than `user` had when it was read. -/
def Keeping (user a : Account) : Prop :=
  isLocked s.now a ∨ cfg.lockoutThreshold ≤ user.failedLoginCount + 1 ∨
    a.failedLoginCount ≤ user.failedLoginCount

instance (user a : Account) : Decidable (Keeping cfg s user a) :=
  inferInstanceAs (Decidable (_ ∨ _))

/-- The step counts every failure and lifts no lock. -/
def timely (n : Nat) : Call → Bool
  | .record rest =>
    (rest[n]?).all fun user ↦ s.accounts.all fun a ↦ a.id = user.id → Keeping cfg s user a
  | .reset matched => s.accounts.all fun a ↦ a.id = matched.id → ¬ isLocked s.now a
  | k => unrecorded cfg s k = []

/-- The step counts every failure and lifts no lock. -/
def undisturbed (p : Pool Store Call) : Event (String × String) Nat Change → Bool
  | .act i n => (p.calls i).all (timely cfg p.store n)
  | _ => true

/-- Runs in which every step does. -/
def Undisturbed (p : Pool Store Call) (e : Event (String × String) Nat Change)
    (_ : Pool Store Call) : Prop := undisturbed cfg p e = true

end

section

variable {cfg : Config} {s s' : Store} {k : Call} {n : Nat} {a b user : Account} {userId : Id}
  {now : Millis}

/-! ## Counting -/

theorem isLocked_iff : isLocked now a = true ↔ ∃ t, a.lockedUntil = some t ∧ now < t := by
  simp [isLocked, Option.any_eq_true]

theorem failuresOf_congr (hid : b.id = a.id) (hlock : b.lockedUntil = a.lockedUntil)
    (hf : s'.failures = s.failures) : failuresOf s' b = failuresOf s a := by
  simp only [failuresOf, hid, hlock, hf]

theorem failuresOf_eq_zero (h : ∀ f ∈ s.failures, f.userId ≠ a.id) : failuresOf s a = 0 := by
  apply List.countP_eq_zero.mpr
  intro f hf hc
  exact h f hf (of_decide_eq_true hc).1

theorem failuresOf_cons (hf : s'.failures = ⟨userId, now⟩ :: s.failures) :
    failuresOf s' a ≤ failuresOf s a + 1 := by
  simp only [failuresOf, hf, List.countP_cons]
  split <;> omega

theorem failuresOf_cons_of_ne (h : a.id ≠ userId)
    (hf : s'.failures = ⟨userId, now⟩ :: s.failures) : failuresOf s' a = failuresOf s a := by
  have hno : ¬ (userId = a.id ∧ (a.lockedUntil.all fun t ↦ t ≤ now) = true) :=
    fun hc ↦ h hc.1.symm
  simp [failuresOf, hf, hno]

theorem failuresOf_filter_self (h : a.id = userId)
    (hf : s'.failures = s.failures.filter fun f ↦ f.userId ≠ userId) : failuresOf s' a = 0 := by
  refine failuresOf_eq_zero fun f hmem ↦ ?_
  rw [hf] at hmem
  exact h ▸ of_decide_eq_true (List.mem_filter.mp hmem).2

theorem failuresOf_filter_of_ne (h : a.id ≠ userId)
    (hf : s'.failures = s.failures.filter fun f ↦ f.userId ≠ userId) :
    failuresOf s' a = failuresOf s a := by
  simp only [failuresOf, hf, List.countP_filter]
  apply List.countP_congr
  intro f _
  simp only [Bool.and_eq_true, decide_eq_true_eq]
  constructor
  · rintro ⟨hc, -⟩
    exact hc
  · intro hc
    exact ⟨hc, fun he ↦ h (hc.1.symm.trans he)⟩

/-! ## The invariant -/

def Counted (s : Store) (a : Account) : Prop :=
  isLocked s.now a = true ∨ failuresOf s a ≤ a.failedLoginCount

theorem Counted.congr (h : Counted s a) (hnow : s'.now = s.now)
    (hf : failuresOf s' a = failuresOf s a) : Counted s' a := by
  unfold Counted
  rw [hnow, hf]
  exact h

structure Inv (cfg : Config) (s : Store) : Prop where
  ids : ∀ a ∈ s.accounts, a.id ∈ s.drawnIds
  /-- So are those with failures, and the failures are past. -/
  failures : ∀ f ∈ s.failures, f.userId ∈ s.drawnIds ∧ f.time ≤ s.now
  below : ∀ a ∈ s.accounts, a.failedLoginCount < cfg.lockoutThreshold
  counted : ∀ a ∈ s.accounts, Counted s a
  refused : ∀ c ∈ s.successes, c.failures < cfg.lockoutThreshold ∧ c.locked = false

theorem recordFailedLogin_lt :
    (recordFailedLogin cfg now user a).failedLoginCount < cfg.lockoutThreshold := by
  unfold recordFailedLogin
  dsimp only
  split
  · exact cfg.threshold_pos
  · rename_i h
    exact Nat.not_le.mp h

@[simp] theorem recordFailedLogin_id : (recordFailedLogin cfg now user a).id = a.id := by
  unfold recordFailedLogin
  dsimp only
  split <;> rfl

@[simp] theorem resetFailedLogin_id : (resetFailedLogin user a).id = a.id := by
  unfold resetFailedLogin
  split <;> rfl

theorem counted_recordFailedLogin (h : Counted s a) (hk : Keeping cfg s user a)
    (hnow : s'.now = s.now) (hf : s'.failures = ⟨userId, s.now⟩ :: s.failures) :
    Counted s' (recordFailedLogin cfg s.now user a) := by
  unfold recordFailedLogin
  dsimp only
  split
  · refine .inl (isLocked_iff.mpr ⟨_, rfl, ?_⟩)
    rw [hnow]
    exact Int.lt_add_of_pos_right _ cfg.lockout_pos
  · rename_i hlt
    by_cases hl : isLocked s.now a = true
    · exact .inl (hnow ▸ hl)
    · refine .inr ?_
      have hle : a.failedLoginCount ≤ user.failedLoginCount :=
        (hk.resolve_left hl).resolve_left hlt
      calc failuresOf s' { a with failedLoginCount := user.failedLoginCount + 1 }
          ≤ failuresOf s a + 1 := failuresOf_cons hf
        _ ≤ a.failedLoginCount + 1 := Nat.succ_le_succ (h.resolve_left hl)
        _ ≤ user.failedLoginCount + 1 := Nat.succ_le_succ hle

theorem Inv.recordStep (h : Inv cfg s)
    (hk : ∀ a ∈ s.accounts, a.id = user.id → Keeping cfg s user a) : Inv cfg (recordStep cfg s user) := by
  unfold Lockout.recordStep
  split
  · rename_i hrow
    obtain ⟨row, hrow⟩ := Option.isSome_iff_exists.mp hrow
    obtain ⟨hmem, hid⟩ := lookup_spec hrow
    refine ⟨?_, ?_, ?_, ?_, h.refused⟩
    · exact forall_modify h.ids fun a ha _ ↦ by rw [recordFailedLogin_id]; exact h.ids a ha
    · intro f hf
      rcases List.mem_cons.mp hf with rfl | hf
      · exact ⟨hid ▸ h.ids row hmem, Int.le_refl _⟩
      · exact h.failures f hf
    · exact forall_modify h.below fun a _ _ ↦ recordFailedLogin_lt
    · intro b hb
      rcases mem_modify.mp hb with ⟨hb, hne⟩ | ⟨a, ha, he, rfl⟩
      · exact (h.counted b hb).congr rfl (failuresOf_cons_of_ne hne rfl)
      · exact counted_recordFailedLogin (h.counted a ha) (hk a ha he) rfl rfl
  · exact h

theorem Inv.resetStep (h : Inv cfg s)
    (hk : ∀ a ∈ s.accounts, a.id = user.id → isLocked s.now a = false) :
    Inv cfg (resetStep s user) := by
  unfold Lockout.resetStep
  cases hrow : lookup Account.id user.id s.accounts with
  | none => exact h
  | some row =>
    obtain ⟨hmem, hid⟩ := lookup_spec hrow
    have hopen := hk row hmem hid
    refine ⟨?_, ?_, ?_, ?_, ?_⟩
    · exact forall_modify h.ids fun a ha _ ↦ by rw [resetFailedLogin_id]; exact h.ids a ha
    · exact fun f hf ↦ h.failures f (List.mem_of_mem_filter hf)
    · refine forall_modify h.below fun a ha _ ↦ ?_
      unfold resetFailedLogin
      split
      · exact cfg.threshold_pos
      · exact h.below a ha
    · intro b hb
      rcases mem_modify.mp hb with ⟨hb, hne⟩ | ⟨a, ha, he, rfl⟩
      · exact (h.counted b hb).congr rfl (failuresOf_filter_of_ne hne rfl)
      · refine .inr ?_
        rw [failuresOf_filter_self (by rw [resetFailedLogin_id]; exact he) rfl]
        exact Nat.zero_le _
    · intro c hc
      rcases List.mem_cons.mp hc with rfl | hc
      · refine ⟨?_, hopen⟩
        have hle : failuresOf s row ≤ row.failedLoginCount :=
          (h.counted row hmem).resolve_left (by simp [hopen])
        exact Nat.lt_of_le_of_lt hle (h.below row hmem)
      · exact h.refused c hc

theorem Inv.effect (h : Inv cfg s) (hok : timely cfg s n k = true) : Inv cfg (effect cfg s n k) := by
  cases k with
  | record rest =>
    simp only [Lockout.effect]
    cases hn : rest[n]? with
    | none => exact h
    | some user =>
      refine h.recordStep fun a ha he ↦ ?_
      simp only [timely, hn, Option.all_some, List.all_eq_true] at hok
      exact of_decide_eq_true (hok a ha) he
  | reset matched =>
    refine h.resetStep fun a ha he ↦ ?_
    have hall := of_decide_eq_true (List.all_eq_true.mp hok a ha) he
    simpa using hall
  | compare candidate rest compared anyLocked password =>
    have hnone : unrecorded cfg s (.compare candidate rest compared anyLocked password) = [] :=
      of_decide_eq_true hok
    simp only [Lockout.effect, hnone]
    exact h
  | _ => exact h

theorem Inv.tick (h : Inv cfg s) (hle : s.now ≤ now) : Inv cfg { s with now } where
  ids := h.ids
  failures f hf := ⟨(h.failures f hf).1, Int.le_trans (h.failures f hf).2 hle⟩
  below := h.below
  refused := h.refused
  counted a ha := by
    by_cases hl : isLocked now a = true
    · exact .inl hl
    · refine .inr ?_
      rcases h.counted a ha with hbefore | hcount
      · obtain ⟨t, ht, hlt⟩ := isLocked_iff.mp hbefore
        have hzero : failuresOf { s with now } a = 0 := by
          apply List.countP_eq_zero.mpr
          intro f hf hc
          have hpaid : t ≤ f.time := by
            simpa [ht] using (of_decide_eq_true hc).2
          have hpast : s.now < s.now :=
            Int.lt_of_lt_of_le hlt (Int.le_trans hpaid (h.failures f hf).2)
          exact Int.lt_irrefl _ hpast
        rw [hzero]
        exact Nat.zero_le _
      · exact hcount

theorem Inv.unlock (h : Inv cfg s) :
    Inv cfg { s with
      accounts := modify Account.id userId unlocked s.accounts
      failures := s.failures.filter fun f ↦ f.userId ≠ userId } where
  ids := forall_modify h.ids fun a ha _ ↦ h.ids a ha
  failures f hf := h.failures f (List.mem_of_mem_filter hf)
  below := forall_modify h.below fun _ _ _ ↦ cfg.threshold_pos
  refused := h.refused
  counted b hb := by
    rcases mem_modify.mp hb with ⟨hb, hne⟩ | ⟨a, ha, he, rfl⟩
    · exact (h.counted b hb).congr rfl (failuresOf_filter_of_ne hne rfl)
    · exact .inr (Nat.le_of_eq (failuresOf_filter_self he rfl))

theorem Inv.accounts (h : Inv cfg s) {accounts : List Account}
    (hc : ∀ a ∈ accounts, Carries s a) :
    Inv cfg { s with accounts, drawnIds := accounts.map Account.id ++ s.drawnIds } where
  ids a ha := List.mem_append_left _ (List.mem_map_of_mem ha)
  failures f hf := ⟨List.mem_append_right _ (h.failures f hf).1, (h.failures f hf).2⟩
  below a ha := by
    rcases hc a ha with ⟨b, hb, -, hcount, -⟩ | ⟨-, hzero, -⟩
    · exact hcount ▸ h.below b hb
    · exact hzero ▸ cfg.threshold_pos
  refused := h.refused
  counted a ha := by
    rcases hc a ha with ⟨b, hb, hid, hcount, hlock⟩ | ⟨hnew, -, -⟩
    · refine (h.counted b hb).imp (fun hl ↦ ?_) fun hle ↦ ?_
      · simpa [isLocked, hlock] using hl
      · rw [failuresOf_congr hid.symm hlock.symm rfl, ← hcount]
        exact hle
    · refine .inr (Nat.le_trans (Nat.le_of_eq ?_) (Nat.zero_le _))
      exact failuresOf_eq_zero fun f hf he ↦ hnew (he ▸ (h.failures f hf).1)

/-- Nothing is asserted of the calls: what they read is looked at again by `timely`. -/
theorem program_keeps :
    (program cfg).Keeps (Undisturbed cfg) (Inv cfg) fun _ _ _ ↦ True where
  spawn _ _ _ _ := trivial
  act p i k n s' k' hp hk hact hok := by
    obtain ⟨rfl, -⟩ := Prod.mk.inj (Option.some.inj hact)
    have hok : timely cfg p.store n k = true := by simpa [Undisturbed, undisturbed, hk] using hok
    exact ⟨hp.1.effect hok, fun _ _ ↦ trivial, fun _ _ _ _ ↦ trivial⟩
  abort p i k hp _ := ⟨hp.1, fun _ _ _ _ ↦ trivial⟩
  env s d s' h henv := by
    refine ⟨?_, fun _ _ _ ↦ trivial⟩
    cases d with
    | tick now =>
      simp only [program] at henv
      split at henv
      · rename_i hle
        obtain rfl := Option.some.inj henv
        exact h.tick hle
      · cases henv
    | unlock userId =>
      obtain rfl := Option.some.inj henv
      exact h.unlock
    | accounts accounts =>
      simp only [program] at henv
      split at henv
      · rename_i hc
        obtain rfl := Option.some.inj henv
        exact h.accounts hc
      · cases henv
    | ssoBlocked ids =>
      obtain rfl := Option.some.inj henv
      exact { h with }

end

/-! ## Every failure counts -/

structure Guarded (cfg : Config) (s : Store) : Prop where
  /-- The counter of an account has all its failures, or the account is locked. -/
  counted : ∀ a ∈ s.accounts, isLocked s.now a = true ∨ failuresOf s a ≤ a.failedLoginCount
  /-- With as many failures as the threshold it is locked. -/
  locked : ∀ a ∈ s.accounts, cfg.lockoutThreshold ≤ failuresOf s a → isLocked s.now a = true
  /-- Nobody is let in to an account that is locked or has that many failures. -/
  refused : ∀ c ∈ s.successes, c.failures < cfg.lockoutThreshold ∧ c.locked = false

structure Initial (cfg : Config) (s : Store) : Prop where
  ids : ∀ a ∈ s.accounts, a.id ∈ s.drawnIds
  below : ∀ a ∈ s.accounts, a.failedLoginCount < cfg.lockoutThreshold
  failures : s.failures = []
  successes : s.successes = []

theorem Initial.inv {cfg : Config} {s : Store} (h : Initial cfg s) : Inv cfg s where
  ids := h.ids
  failures f hf := by simp [h.failures] at hf
  below := h.below
  counted a _ := by
    refine .inr (Nat.le_trans (Nat.le_of_eq ?_) (Nat.zero_le _))
    exact failuresOf_eq_zero fun f hf ↦ by simp [h.failures] at hf
  refused c hc := by simp [h.successes] at hc

theorem Inv.guarded {cfg : Config} {s : Store} (h : Inv cfg s) : Guarded cfg s where
  counted := h.counted
  locked a ha hle := by
    refine (h.counted a ha).resolve_right fun hcount ↦ ?_
    exact Nat.not_lt.mpr (Nat.le_trans hle hcount) (h.below a ha)
  refused := h.refused

/-- **Failures are counted and locks are kept, in every run whose steps count every
failure and lift no lock.** -/
theorem run_guarded {cfg : Config} {s : Store} {p : Pool Store Call}
    {es : List (Event (String × String) Nat Change)} (h₀ : Initial cfg s)
    (hr : Run (program cfg).step (Undisturbed cfg) (Program.idle Call s) es p) :
    Guarded cfg p.store :=
  (program_keeps.run (Program.holds_idle h₀.inv) hr).1.guarded

def twice : Config where
  lockoutThreshold := 2
  compare password hash := password = hash

def ana : Account := { id := "ana", email := "ana@example.com", passwordHash := some "secret" }

def anaOnly : Store where
  now := 0
  accounts := [ana]
  drawnIds := ["ana"]

theorem anaOnly_initial : Initial twice anaOnly :=
  ⟨by simp [anaOnly, ana], by simp [anaOnly, ana, twice], rfl, rfl⟩

/-- A sign-in with a password of hers, in the slot `i`. -/
def signsIn (i : Nat) (password : String) : Event (String × String) Nat Change :=
  .spawn i ("ana@example.com", password)

def anaMistypes : List (Event (String × String) Nat Change) :=
  [signsIn 0 "sercet", .act 0 0, .act 0 0, .act 0 0, .act 0 0,
    signsIn 0 "scret", .act 0 0, .act 0 0, .act 0 0, .act 0 0, .env (.tick 900000),
    signsIn 0 "secrte", .act 0 0, .act 0 0, .act 0 0, .act 0 0,
    signsIn 0 "secret", .act 0 0, .act 0 0, .act 0 0, .act 0 0]

theorem run_guarded_ana : Initial twice anaOnly ∧ ∃ p : Pool Store Call,
    Guarded twice p.store ∧ p.store.successes = [⟨"ana", 1, false⟩] := by
  have h : execIf (program twice).step (undisturbed twice) (Program.idle Call anaOnly)
      anaMistypes = some _ := rfl
  exact ⟨anaOnly_initial, _, run_guarded anaOnly_initial (run_of_execIf h), rfl⟩

def bothMistype : List (Event (String × String) Nat Change) :=
  [signsIn 0 "sercet", signsIn 1 "scret", .act 0 0, .act 1 0, .act 0 0, .act 1 0, .act 0 0,
    .act 1 0, .act 0 0, .act 1 0]

/-- One of the two failures is lost, and the account is not locked. -/
theorem failure_lost : Initial twice anaOnly ∧ ∃ p : Pool Store Call,
    Run (program twice).step free (Program.idle Call anaOnly) bothMistype p ∧
      p.calls 0 = none ∧ p.calls 1 = none ∧
      p.store.accounts = [{ ana with failedLoginCount := 1 }] ∧
      failuresOf p.store ana = 2 ∧ ¬ Guarded twice p.store := by
  have h : exec (program twice).step (Program.idle Call anaOnly) bothMistype = some _ := rfl
  refine ⟨anaOnly_initial, _, run_of_exec h, rfl, rfl, rfl, rfl, fun hg ↦ ?_⟩
  exact absurd (hg.counted _ List.mem_cons_self) (by decide)

end Shellius.Lockout
