import Shellius.Sso.PendingLinks

/-!
# What a token is good for

The history of the tokens is orderly in every run in which no attempt is counted and no record
is written back after the token was burned or has expired: a token is found only before, it is
consumed by one call at most, every attempt has a number of its own among the first five, and
an identity is linked only by the call that consumed the token, after the password was right
and the second factor too where there was one, or from the mailed link.

An overtaken write brings a token back that was cancelled.
-/

namespace Shellius.Sso.PendingLinks

open Lib

/-! ## Orderly histories -/

def Note.attempt (token : String) : Note → Option Nat
  | .passwordChecked t n _ _ | .codeChecked t n _ => if t = token then some n else none
  | _ => none

def Note.isLink (token : String) : Note → Bool
  | .linked t _ => t = token
  | _ => false

def attempted (l : List Note) (token : String) : List Nat := l.filterMap (Note.attempt token)

/-- What has to be shown before a link: the password and the second factor, or that the call
came from the mailed link. -/
def Proven (l : List Note) (token method : String) : LinkMode → Prop
  | .password => method = "confirmed" ∧ ((∃ n, .passwordChecked token n false true ∈ l) ∨
      (∃ n, .passwordChecked token n true true ∈ l) ∧ ∃ n, .codeChecked token n true ∈ l)
  | .emailApproval => method = "email_approved"

/-- The token has not been burned, and its deadline has not passed. -/
def Good (l : List Note) (token : String) (time : Millis) : Prop :=
  (∀ j t won, .burned token j t won ∉ l) ∧ ∃ mode d, .issued token mode d ∈ l ∧ time < d

def Admissible (l : List Note) : Note → Prop
  | .issued token _ _ => ∀ mode d, .issued token mode d ∉ l
  | .found token time => Good l token time
  | .counted token _ n =>
    (∃ mode d, .issued token mode d ∈ l) ∧ ∀ j m, .counted token j m ∈ l → m < n
  | .passwordChecked token n _ _ | .codeChecked token n _ =>
    1 ≤ n ∧ n ≤ maxConfirmAttempts ∧ (∃ i, .counted token i n ∈ l) ∧ n ∉ attempted l token
  | .burned token _ time won => won = true → Good l token time
  | .linked token method => (∀ m, .linked token m ∉ l) ∧ (∃ i t, .burned token i t true ∈ l) ∧
      ∃ mode d, .issued token mode d ∈ l ∧ Proven l token method mode

/-- A link is confirmed once, with few attempts, and can be revoked. -/
structure SingleUse (l : List Note) : Prop where
  once : ∀ token, l.countP (Note.isLink token) ≤ 1
  limited : ∀ token, (attempted l token).length ≤ maxConfirmAttempts
  /-- A link is proven, and made by a call that consumed the token. -/
  proven : ∀ token method r, .linked token method :: r <:+ l →
    (∃ i t, .burned token i t true ∈ r) ∧
      ∃ mode d, .issued token mode d ∈ r ∧ Proven r token method mode
  /-- A token that is consumed was neither burned nor expired. -/
  consumed : ∀ token i time r, .burned token i time true :: r <:+ l → Good r token time
  /-- A token that is found was neither burned nor expired. -/
  found : ∀ token time r, .found token time :: r <:+ l → Good r token time

section

variable {l r : List Note} {token method : String} {mode mode' : LinkMode} {d d' time : Millis}
  {i j n : Nat} {x : Note}

theorem attempt_eq_some (h : x.attempt token = some n) :
    (∃ e ok, x = .passwordChecked token n e ok) ∨ ∃ ok, x = .codeChecked token n ok := by
  cases x with
  | passwordChecked t m e ok =>
    obtain ⟨rfl, hn⟩ := Option.ite_none_right_eq_some.mp h
    exact .inl ⟨e, ok, by rw [Option.some.inj hn]⟩
  | codeChecked t m ok =>
    obtain ⟨rfl, hn⟩ := Option.ite_none_right_eq_some.mp h
    exact .inr ⟨ok, by rw [Option.some.inj hn]⟩
  | _ => cases h

theorem Admissible.attempt (h : Admissible l x) (hx : x.attempt token = some n) :
    1 ≤ n ∧ n ≤ maxConfirmAttempts ∧ (∃ i, .counted token i n ∈ l) ∧ n ∉ attempted l token := by
  obtain ⟨e, ok, rfl⟩ | ⟨ok, rfl⟩ := attempt_eq_some hx
  · exact h
  · exact h

theorem issued_unique (h : Orderly Admissible l) (ha : .issued token mode d ∈ l)
    (hb : .issued token mode' d' ∈ l) : mode = mode' ∧ d = d' := by
  obtain heq | ⟨r, hr, hmem⟩ | ⟨r, hr, hmem⟩ := h.total ha hb
  · cases heq
    exact ⟨rfl, rfl⟩
  · exact absurd hmem (hr _ _)
  · exact absurd hmem (hr _ _)

theorem counted_unique (h : Orderly Admissible l) (hi : .counted token i n ∈ l)
    (hj : .counted token j n ∈ l) : i = j := by
  obtain heq | ⟨r, hr, hmem⟩ | ⟨r, hr, hmem⟩ := h.total hi hj
  · cases heq
    rfl
  · exact absurd (hr.2 _ _ hmem) (lt_irrefl n)
  · exact absurd (hr.2 _ _ hmem) (lt_irrefl n)

theorem burned_unique {t t' : Millis} (h : Orderly Admissible l) (hi : .burned token i t true ∈ l)
    (hj : .burned token j t' true ∈ l) : i = j := by
  obtain heq | ⟨r, hr, hmem⟩ | ⟨r, hr, hmem⟩ := h.total hi hj
  · cases heq
    rfl
  · exact absurd hmem ((hr rfl).1 _ _ _)
  · exact absurd hmem ((hr rfl).1 _ _ _)

theorem counted_of_attempted (h : Orderly Admissible l) (hn : n ∈ attempted l token) :
    ∃ i, .counted token i n ∈ l := by
  induction l with
  | nil => cases hn
  | cons x l ih =>
    obtain ⟨y, hy, hyn⟩ := List.mem_filterMap.mp hn
    obtain rfl | hy := List.mem_cons.mp hy
    · obtain ⟨-, -, ⟨i, hi⟩, -⟩ := h.1.attempt hyn
      exact ⟨i, List.mem_cons_of_mem _ hi⟩
    · obtain ⟨i, hi⟩ := ih h.2 (List.mem_filterMap.mpr ⟨y, hy, hyn⟩)
      exact ⟨i, List.mem_cons_of_mem _ hi⟩

theorem attempted_le (h : Orderly Admissible l) (hn : n ∈ attempted l token) :
    1 ≤ n ∧ n ≤ maxConfirmAttempts := by
  induction l with
  | nil => cases hn
  | cons x l ih =>
    obtain ⟨y, hy, hyn⟩ := List.mem_filterMap.mp hn
    obtain rfl | hy := List.mem_cons.mp hy
    · obtain ⟨hpos, hle, -⟩ := h.1.attempt hyn
      exact ⟨hpos, hle⟩
    · exact ih h.2 (List.mem_filterMap.mpr ⟨y, hy, hyn⟩)

theorem length_attempted (h : Orderly Admissible l) :
    (attempted l token).length ≤ maxConfirmAttempts := by
  have hnodup : (attempted l token).Nodup :=
    h.nodup_filterMap fun r a m ha hm ↦ (ha.attempt hm).2.2.2
  have hsub : attempted l token ⊆ List.range' 1 maxConfirmAttempts := by
    intro n hn
    obtain ⟨hpos, hle⟩ := attempted_le h hn
    exact List.mem_range'_1.mpr ⟨hpos, Nat.lt_of_le_of_lt hle (Nat.lt_add_of_pos_left Nat.one_pos)⟩
  exact (List.subperm_of_subset hnodup hsub).length_le

theorem countP_isLink (h : Orderly Admissible l) : l.countP (Note.isLink token) ≤ 1 := by
  refine h.countP_le_one fun r x hx hlink y hy ↦ ?_
  cases x with
  | linked t m =>
    obtain rfl : t = token := of_decide_eq_true hlink
    cases y with
    | linked t' m' =>
      refine decide_eq_false fun ht ↦ ?_
      subst ht
      exact hx.1 m' hy
    | _ => rfl
  | _ => cases hlink

theorem singleUse (h : Orderly Admissible l) : SingleUse l where
  once _ := countP_isLink h
  limited _ := length_attempted h
  proven _ _ _ hs := (h.admissible hs).2
  consumed _ _ _ _ hs := h.admissible hs rfl
  found _ _ _ hs := h.admissible hs

end

/-! ## What is known of a call -/

/-- The record was stored under the token, and the password was right if it says so. -/
def Known (l : List Note) (token : String) (pending : Pending) : Prop :=
  (∃ d, .issued token pending.mode d ∈ l) ∧
    (pending.passwordVerified = true → ∃ n, .passwordChecked token n true true ∈ l)

/-- The record is one of the password form, and a code is taken only after the password. -/
def Asked (l : List Note) (token : String) (pending : Pending) (isCode : Bool) : Prop :=
  Known l token pending ∧ pending.mode = .password ∧
    (isCode = true → pending.passwordVerified = true)

/-- The call counted the attempt, which is still to be checked. -/
def Attempt (l : List Note) (i : Nat) (token : String) (n : Nat) : Prop :=
  1 ≤ n ∧ .counted token i n ∈ l ∧ n ∉ attempted l token

def Ready (l : List Note) (token : String) (link : Link) : Prop :=
  ∃ d, .issued token link.pending.mode d ∈ l ∧ Proven l token link.method link.pending.mode

/-- The call consumed the token, and has not linked yet. -/
def Winner (l : List Note) (i : Nat) (token : String) : Prop :=
  (∃ t, .burned token i t true ∈ l) ∧ ∀ m, .linked token m ∉ l

def Answer.isCode : Answer → Bool
  | .password _ => false
  | .code .. => true

def Assert (l : List Note) (i : Nat) (token : String) : Action → Prop
  | .loadUser pending answer =>
    Known l token pending ∧
      pending.mode = if answer.isSome then .password else .emailApproval
  | .count pending _ answer => Asked l token pending answer.isCode
  | .expire pending _ answer => Asked l token pending answer.isCode ∧ Attempt l i token 1
  | .compare pending _ n _ =>
    Asked l token pending false ∧ n ≤ maxConfirmAttempts ∧ Attempt l i token n
  | .throttle pending _ n _ | .verify pending n =>
    Asked l token pending true ∧ n ≤ maxConfirmAttempts ∧ Attempt l i token n
  | .write pending => Known l token { pending with passwordVerified := true }
  | .consume (some link) => Ready l token link
  | .clear none => ∃ j t won, .burned token j t won ∈ l
  | .clear (some link) | .findConfig link | .findIdentity link | .findSameProvider link
  | .findUser link | .create link _ => Ready l token link ∧ Winner l i token
  | .readConfirm _ | .readApprove | .readCancel | .consume none | .updateUser .. => True

/-- The note is of a step of another call. -/
def Foreign (i : Nat) (l : List Note) : Note → Prop
  | .passwordChecked token n _ _ | .codeChecked token n _ =>
    ∃ j, j ≠ i ∧ .counted token j n ∈ l
  | .linked token _ => ∃ j t, j ≠ i ∧ .burned token j t true ∈ l
  | _ => True

section

variable {l : List Note} {token : String} {pending : Pending} {link : Link} {i n : Nat}
  {x : Note} {isCode : Bool}

theorem Known.cons (h : Known l token pending) : Known (x :: l) token pending := by
  obtain ⟨⟨d, hd⟩, hverified⟩ := h
  refine ⟨⟨d, List.mem_cons_of_mem _ hd⟩, fun hv ↦ ?_⟩
  obtain ⟨n, hn⟩ := hverified hv
  exact ⟨n, List.mem_cons_of_mem _ hn⟩

theorem Asked.cons (h : Asked l token pending isCode) : Asked (x :: l) token pending isCode :=
  ⟨h.1.cons, h.2⟩

theorem Proven.cons {method : String} {mode : LinkMode} (h : Proven l token method mode) :
    Proven (x :: l) token method mode := by
  cases mode with
  | password =>
    obtain ⟨hmethod, ⟨n, hn⟩ | ⟨⟨n, hn⟩, m, hm⟩⟩ := h
    · exact ⟨hmethod, .inl ⟨n, List.mem_cons_of_mem _ hn⟩⟩
    · exact ⟨hmethod, .inr ⟨⟨n, List.mem_cons_of_mem _ hn⟩, m, List.mem_cons_of_mem _ hm⟩⟩
  | emailApproval => exact h

theorem Ready.cons (h : Ready l token link) : Ready (x :: l) token link := by
  obtain ⟨d, hd, hproven⟩ := h
  exact ⟨d, List.mem_cons_of_mem _ hd, hproven.cons⟩

theorem attempted_cons (hx : x.attempt token = some n) :
    attempted (x :: l) token = n :: attempted l token := List.filterMap_cons_some hx

theorem attempted_cons_of_none (hx : x.attempt token = none) :
    attempted (x :: l) token = attempted l token := List.filterMap_cons_none hx

theorem Attempt.cons (hl : Orderly Admissible l) (h : Attempt l i token n) (hx : Foreign i l x) :
    Attempt (x :: l) i token n := by
  obtain ⟨hpos, hcounted, hnew⟩ := h
  refine ⟨hpos, List.mem_cons_of_mem _ hcounted, ?_⟩
  cases hm : x.attempt token with
  | none =>
    rw [attempted_cons_of_none hm]
    exact hnew
  | some m =>
    rw [attempted_cons hm]
    have hforeign : ∃ j, j ≠ i ∧ .counted token j m ∈ l := by
      obtain ⟨e, ok, rfl⟩ | ⟨ok, rfl⟩ := attempt_eq_some hm
      · exact hx
      · exact hx
    obtain ⟨j, hne, hj⟩ := hforeign
    intro hmem
    obtain rfl | hmem := List.mem_cons.mp hmem
    · exact hne (counted_unique hl hj hcounted)
    · exact hnew hmem

theorem Winner.cons (hl : Orderly Admissible l) (h : Winner l i token) (hx : Foreign i l x) :
    Winner (x :: l) i token := by
  obtain ⟨⟨t, ht⟩, hnone⟩ := h
  refine ⟨⟨t, List.mem_cons_of_mem _ ht⟩, ?_⟩
  intro m hm
  obtain rfl | hm := List.mem_cons.mp hm
  · obtain ⟨j, t', hne, hj⟩ := hx
    exact hne (burned_unique hl hj ht)
  · exact hnone m hm

theorem Assert.cons {a : Action} (hl : Orderly Admissible l) (h : Assert l i token a)
    (hx : Foreign i l x) : Assert (x :: l) i token a := by
  cases a with
  | loadUser pending answer => exact ⟨h.1.cons, h.2⟩
  | count => exact Asked.cons h
  | expire => exact ⟨h.1.cons, h.2.cons hl hx⟩
  | compare | throttle | verify => exact ⟨h.1.cons, h.2.1, h.2.2.cons hl hx⟩
  | write => exact Known.cons h
  | consume link =>
    cases link with
    | none => trivial
    | some link => exact Ready.cons h
  | clear link =>
    cases link with
    | none =>
      obtain ⟨j, t, won, hmem⟩ := h
      exact ⟨j, t, won, List.mem_cons_of_mem _ hmem⟩
    | some link => exact ⟨h.1.cons, h.2.cons hl hx⟩
  | findConfig | findIdentity | findSameProvider | findUser | create =>
    exact ⟨h.1.cons, h.2.cons hl hx⟩
  | readConfirm | readApprove | readCancel | updateUser => trivial

end

/-! ## The invariant -/

/-- What the keys of Redis have to do with the history. -/
structure Inv (s : Store) : Prop where
  orderly : Orderly Admissible s.log
  /-- A record has the deadline it was stored with, and its token was not burned. -/
  record : ∀ token e, s.links token = some e →
    Known s.log token e.value ∧ (∀ j t won, .burned token j t won ∉ s.log) ∧
      ∃ d, .issued token e.value.mode d ∈ s.log ∧ e.expiresAt = some d
  counter : ∀ token e, s.attempts token = some e →
    ∃ mode d, .issued token mode d ∈ s.log ∧ ∀ t ∈ e.expiresAt, d ≤ t
  numbers : ∀ token i n, .counted token i n ∈ s.log → (s.readPending token).isSome = true →
    n ≤ (s.attempts.get s.now token).getD 0
  timing : ∀ token d, .issued token .password d ∈ s.log → d ≤ s.now + pendingLinkTtl

section

variable (compare : String → String → Bool)

variable {s : Store} {token : String} {i : Nat} {k : Call} {out : Outside}

theorem readPending_eq_some {pending : Pending} (h : s.readPending token = some pending) :
    ∃ e, s.links token = some e ∧ e.live s.now = true ∧ e.value = pending :=
  Expiring.get_eq_some.mp h

theorem Inv.good (h : Inv s) {pending : Pending} (hr : s.readPending token = some pending) :
    Known s.log token pending ∧ Good s.log token s.now := by
  obtain ⟨e, he, hlive, rfl⟩ := readPending_eq_some hr
  obtain ⟨hknown, hfresh, d, hd, hexp⟩ := h.record token e he
  refine ⟨hknown, hfresh, _, d, hd, ?_⟩
  rw [Entry.live, hexp] at hlive
  exact of_decide_eq_true hlive

/-- The history with what a step writes into it. -/
def history (s : Store) (i : Nat) (k : Call) (out : Outside) : List Note :=
  (note compare s i k out).toList ++ s.log

variable {compare}

theorem admissible_note {x : Note} (h : Inv s) (ha : Assert s.log i k.token k.action)
    (hok : timely s k = true) (hx : note compare s i k out = some x) : Admissible s.log x := by
  obtain ⟨token, a⟩ := k
  cases a with
  | readConfirm | readApprove | readCancel =>
    obtain ⟨pending, hr, rfl⟩ := Option.map_eq_some_iff.mp hx
    exact (h.good hr).2
  | count pending user answer =>
    obtain rfl := Option.some.inj hx
    obtain ⟨⟨⟨d, hd⟩, -⟩, -⟩ := ha
    refine ⟨⟨_, d, hd⟩, ?_⟩
    intro j m hm
    rw [Expiring.incr_eq]
    exact Nat.lt_succ_of_le (h.numbers token j m hm hok)
  | compare pending user n text =>
    obtain rfl := Option.some.inj hx
    obtain ⟨-, hle, hpos, hcounted, hnew⟩ := ha
    exact ⟨hpos, hle, ⟨i, hcounted⟩, hnew⟩
  | verify pending n =>
    obtain rfl := Option.some.inj hx
    obtain ⟨-, hle, hpos, hcounted, hnew⟩ := ha
    exact ⟨hpos, hle, ⟨i, hcounted⟩, hnew⟩
  | consume link =>
    obtain rfl := Option.some.inj hx
    intro hwon
    obtain ⟨pending, hr⟩ := Option.isSome_iff_exists.mp hwon
    exact (h.good hr).2
  | create link user =>
    obtain ⟨_, -, rfl⟩ := Option.map_eq_some_iff.mp hx
    obtain ⟨⟨d, hd, hproven⟩, ⟨t, ht⟩, hnone⟩ := ha
    exact ⟨hnone, ⟨i, t, ht⟩, _, d, hd, hproven⟩
  | _ => cases hx

theorem foreign_note {x : Note} {j : Nat} (hij : i ≠ j) (ha : Assert s.log i k.token k.action)
    (hx : note compare s i k out = some x) : Foreign j s.log x := by
  obtain ⟨token, a⟩ := k
  cases a with
  | readConfirm | readApprove | readCancel =>
    obtain ⟨pending, -, rfl⟩ := Option.map_eq_some_iff.mp hx
    trivial
  | count | consume =>
    obtain rfl := Option.some.inj hx
    trivial
  | compare pending user n text =>
    obtain rfl := Option.some.inj hx
    obtain ⟨-, -, -, hcounted, -⟩ := ha
    exact ⟨i, hij, hcounted⟩
  | verify pending n =>
    obtain rfl := Option.some.inj hx
    obtain ⟨-, -, -, hcounted, -⟩ := ha
    exact ⟨i, hij, hcounted⟩
  | create link user =>
    obtain ⟨_, -, rfl⟩ := Option.map_eq_some_iff.mp hx
    obtain ⟨-, ⟨t, ht⟩, -⟩ := ha
    exact ⟨i, t, hij, ht⟩
  | _ => cases hx

theorem assert_judge {pending : Pending} {user : Member} {n : Nat} {answer : Answer}
    {l : List Note} (hasked : Asked l token pending answer.isCode) (hn : Attempt l i token n) :
    Assert l i token (judge pending user n answer) := by
  unfold judge
  split
  · trivial
  · rename_i hle
    cases answer with
    | password text => exact ⟨hasked, Nat.le_of_not_lt hle, hn⟩
    | code method text => exact ⟨hasked, Nat.le_of_not_lt hle, hn⟩

theorem attempt_count (h : Inv s) (hlive : (s.readPending token).isSome = true) :
    Attempt (.counted token i (s.attempts.incr s.now token).1 :: s.log) i token
      (s.attempts.incr s.now token).1 := by
  refine ⟨?_, List.mem_cons_self, ?_⟩
  · rw [Expiring.incr_eq]
    exact Nat.succ_pos _
  · rw [attempted_cons_of_none rfl]
    intro hmem
    obtain ⟨j, hj⟩ := counted_of_attempted h.orderly hmem
    have hle := h.numbers token j _ hj hlive
    rw [Expiring.incr_eq] at hle
    exact Nat.not_succ_le_self _ hle

theorem winner_consume (h : Inv s) {pending : Pending} (hr : s.readPending token = some pending) :
    Winner (.burned token i s.now true :: s.log) i token := by
  refine ⟨⟨s.now, List.mem_cons_self⟩, ?_⟩
  intro m hm
  obtain heq | hm := List.mem_cons.mp hm
  · cases heq
  · obtain ⟨r, hs⟩ : ∃ r, .linked token m :: r <:+ s.log := by
      obtain ⟨front, r, hl⟩ := List.append_of_mem hm
      exact ⟨r, front, hl.symm⟩
    obtain ⟨-, ⟨j, t, hj⟩, -⟩ := h.orderly.admissible hs
    exact (h.good hr).2.1 j t true (hs.subset (List.mem_cons_of_mem _ hj))

/-- A call knows what it has to after its own step. -/
theorem assert_next {a a' : Action} (h : Inv s) (ha : Assert s.log i token a)
    (hok : timely s ⟨token, a⟩ = true) (hnext : next compare s token out a = some a') :
    Assert (history compare s i ⟨token, a⟩ out) i token a' := by
  cases a with
  | readConfirm answer =>
    obtain ⟨pending, hp, rfl⟩ := Option.map_eq_some_iff.mp hnext
    obtain ⟨hr, hmode⟩ := Option.filter_eq_some_iff.mp hp
    rw [history, note, hr]
    exact ⟨(h.good hr).1.cons, of_decide_eq_true hmode⟩
  | readApprove =>
    obtain ⟨pending, hp, rfl⟩ := Option.map_eq_some_iff.mp hnext
    obtain ⟨hr, hmode⟩ := Option.filter_eq_some_iff.mp hp
    rw [history, note, hr]
    exact ⟨(h.good hr).1.cons, of_decide_eq_true hmode⟩
  | readCancel =>
    obtain ⟨pending, hr, rfl⟩ := Option.map_eq_some_iff.mp hnext
    trivial
  | loadUser pending answer =>
    obtain ⟨hknown, hmode⟩ := ha
    obtain ⟨user, -, hnext⟩ := Option.bind_eq_some_iff.mp hnext
    cases answer with
    | none =>
      obtain rfl := Option.some.inj hnext
      obtain ⟨d, hd⟩ := hknown.1
      refine ⟨d, hd, ?_⟩
      rw [hmode]
      rfl
    | some answer =>
      cases answer with
      | password text =>
        obtain ⟨-, hnext⟩ := Option.ite_none_left_eq_some.mp hnext
        obtain rfl := Option.some.inj hnext
        exact ⟨hknown, hmode, fun hcode ↦ absurd hcode Bool.false_ne_true⟩
      | code method text =>
        obtain ⟨hverified, hnext⟩ := Option.ite_none_right_eq_some.mp hnext
        obtain rfl := Option.some.inj hnext
        exact ⟨hknown, hmode, fun _ ↦ hverified⟩
  | count pending user answer =>
    have hattempt := attempt_count (i := i) h hok
    obtain rfl := Option.some.inj hnext
    split
    · rename_i hone
      rw [hone] at hattempt
      refine ⟨Asked.cons ha, ?_⟩
      show Attempt (.counted token i (s.attempts.incr s.now token).1 :: s.log) i token 1
      rw [hone]
      exact hattempt
    · exact assert_judge (Asked.cons ha) hattempt
  | expire pending user answer =>
    obtain rfl := Option.some.inj hnext
    exact assert_judge ha.1 ha.2
  | compare pending user n text =>
    obtain ⟨⟨⟨⟨d, hd⟩, -⟩, hmode, -⟩, -, -⟩ := ha
    obtain ⟨hright, hnext⟩ := Option.ite_none_right_eq_some.mp hnext
    have hd' : .issued token pending.mode d ∈
        history compare s i ⟨token, .compare pending user n text⟩ out :=
      List.mem_cons_of_mem _ hd
    split at hnext
    · rename_i henrolled
      obtain rfl := Option.some.inj hnext
      refine ⟨⟨d, hd'⟩, fun _ ↦ ⟨n, ?_⟩⟩
      show _ ∈
        .passwordChecked token n (methods user ≠ []) (passwordOk compare user text) :: s.log
      rw [hright, decide_eq_true henrolled]
      exact List.mem_cons_self
    · rename_i henrolled
      obtain rfl := Option.some.inj hnext
      refine ⟨d, hd', ?_⟩
      show Proven _ token "confirmed" pending.mode
      rw [hmode]
      refine ⟨rfl, .inl ⟨n, ?_⟩⟩
      show _ ∈
        .passwordChecked token n (methods user ≠ []) (passwordOk compare user text) :: s.log
      rw [hright, decide_eq_false henrolled]
      exact List.mem_cons_self
  | throttle pending user n method =>
    obtain ⟨-, hnext⟩ := Option.ite_none_right_eq_some.mp hnext
    obtain rfl := Option.some.inj hnext
    exact ha
  | verify pending n =>
    obtain ⟨⟨⟨⟨d, hd⟩, hknown⟩, hmode, hverified⟩, -, -⟩ := ha
    obtain ⟨hright, hnext⟩ := Option.ite_none_right_eq_some.mp hnext
    obtain rfl := Option.some.inj hnext
    obtain ⟨m, hm⟩ := hknown (hverified rfl)
    refine ⟨d, List.mem_cons_of_mem _ hd, ?_⟩
    show Proven _ token "confirmed" pending.mode
    rw [hmode]
    refine ⟨rfl, .inr ⟨⟨m, List.mem_cons_of_mem _ hm⟩, n, ?_⟩⟩
    show _ ∈ .codeChecked token n out.factorOk :: s.log
    rw [hright]
    exact List.mem_cons_self
  | consume link =>
    obtain rfl := Option.some.inj hnext
    cases hr : s.readPending token with
    | none =>
      have hnone : link.filter (fun _ ↦ (none : Option Pending).isSome) = none := by
        cases link <;> rfl
      rw [hnone]
      exact ⟨i, s.now, _, List.mem_cons_self⟩
    | some pending =>
      cases link with
      | none => exact ⟨i, s.now, _, List.mem_cons_self⟩
      | some link =>
        refine ⟨Ready.cons ha, ?_⟩
        rw [history, note, hr]
        exact winner_consume h hr
  | clear link =>
    obtain ⟨link, rfl, rfl⟩ := Option.map_eq_some_iff.mp hnext
    exact ha
  | findConfig link =>
    obtain ⟨-, hnext⟩ := Option.ite_none_right_eq_some.mp hnext
    obtain rfl := Option.some.inj hnext
    exact ha
  | findIdentity link =>
    obtain ⟨-, hnext⟩ := Option.ite_none_left_eq_some.mp hnext
    obtain rfl := Option.some.inj hnext
    exact ha
  | findSameProvider link =>
    obtain ⟨-, hnext⟩ := Option.ite_none_left_eq_some.mp hnext
    obtain rfl := Option.some.inj hnext
    exact ha
  | findUser link =>
    obtain ⟨user, -, rfl⟩ := Option.map_eq_some_iff.mp hnext
    exact ha
  | create link user =>
    obtain ⟨_, -, rfl⟩ := Option.map_eq_some_iff.mp hnext
    trivial
  | write | updateUser => cases hnext

theorem assert_history {a : Action} {t : String} {j : Nat} (h : Inv s) (hij : i ≠ j)
    (ha : Assert s.log i k.token k.action) (hj : Assert s.log j t a) :
    Assert (history compare s i k out) j t a := by
  unfold history
  cases hx : note compare s i k out with
  | none => exact hj
  | some x => exact hj.cons h.orderly (foreign_note hij ha hx)

/-! ## What a step keeps -/

/-- The note is not about the keys of Redis. -/
def Neutral : Note → Prop
  | .issued .. | .counted .. | .burned .. => False
  | _ => True

theorem Inv.congr {s' : Store} (h : Inv s) (hlinks : s'.links = s.links)
    (hattempts : s'.attempts = s.attempts) (hnow : s'.now = s.now) (hlog : s'.log = s.log) :
    Inv s' := by
  obtain ⟨t, now, links, attempts, log⟩ := s
  obtain ⟨t', now', links', attempts', log'⟩ := s'
  subst hlinks hattempts hnow hlog
  exact ⟨h.orderly, h.record, h.counter, h.numbers, h.timing⟩

theorem mem_of_neutral {x y : Note} {l : List Note} (hx : Neutral x) (hy : ¬ Neutral y)
    (h : y ∈ x :: l) : y ∈ l := by
  obtain rfl | h := List.mem_cons.mp h
  · exact absurd hx hy
  · exact h

theorem Inv.cons {x : Note} (h : Inv s) (hadm : Admissible s.log x) (hx : Neutral x) :
    Inv { s with log := x :: s.log } where
  orderly := h.orderly.cons hadm
  record token e he := by
    obtain ⟨hknown, hfresh, d, hd, hexp⟩ := h.record token e he
    refine ⟨hknown.cons, ?_, d, List.mem_cons_of_mem _ hd, hexp⟩
    intro j t won hmem
    exact hfresh j t won (mem_of_neutral hx id hmem)
  counter token e he := by
    obtain ⟨mode, d, hd, hexp⟩ := h.counter token e he
    exact ⟨mode, d, List.mem_cons_of_mem _ hd, hexp⟩
  numbers token i n hmem := h.numbers token i n (mem_of_neutral hx id hmem)
  timing token d hmem := h.timing token d (mem_of_neutral hx id hmem)

theorem Inv.append {o : Option Note} (h : Inv s) (hadm : ∀ x, o = some x → Admissible s.log x)
    (ho : ∀ x ∈ o, Neutral x) : Inv { s with log := o.toList ++ s.log } := by
  cases o with
  | none => exact h
  | some x => exact h.cons (hadm x rfl) (ho x rfl)

/-- An attempt is counted while the record is there. -/
theorem inv_count (h : Inv s) (hissued : ∃ mode d, .issued token mode d ∈ s.log)
    (hadm : Admissible s.log (.counted token i (s.attempts.incr s.now token).1)) :
    Inv { s with
      attempts := (s.attempts.incr s.now token).2
      log := .counted token i (s.attempts.incr s.now token).1 :: s.log } where
  orderly := h.orderly.cons hadm
  record t e he := by
    obtain ⟨hknown, hfresh, d, hd, hexp⟩ := h.record t e he
    refine ⟨hknown.cons, ?_, d, List.mem_cons_of_mem _ hd, hexp⟩
    intro j u won hmem
    obtain heq | hmem := List.mem_cons.mp hmem
    · cases heq
    · exact hfresh j u won hmem
  counter t e he := by
    by_cases ht : t = token
    · subst ht
      obtain hnone | ⟨e₀, he₀, hexp⟩ := Expiring.expiresAt_incr he
      · obtain ⟨mode, d, hd⟩ := hissued
        refine ⟨mode, d, List.mem_cons_of_mem _ hd, fun u hu ↦ ?_⟩
        rw [hnone] at hu
        cases hu
      · obtain ⟨mode, d, hd, hle⟩ := h.counter t e₀ he₀
        exact ⟨mode, d, List.mem_cons_of_mem _ hd, hexp ▸ hle⟩
    · obtain ⟨mode, d, hd, hle⟩ := h.counter t e ((Expiring.incr_of_ne ht).symm.trans he)
      exact ⟨mode, d, List.mem_cons_of_mem _ hd, hle⟩
  numbers t j n hmem hlive := by
    by_cases ht : t = token
    · subst ht
      rw [Expiring.get_incr_self, Option.getD_some]
      obtain heq | hmem := List.mem_cons.mp hmem
      · cases heq
        exact le_rfl
      · rw [Expiring.incr_eq]
        exact Nat.le_succ_of_le (h.numbers t j n hmem hlive)
    · rw [Expiring.get_incr_of_ne ht]
      obtain heq | hmem := List.mem_cons.mp hmem
      · cases heq
        exact absurd rfl ht
      · exact h.numbers t j n hmem hlive
  timing t d hmem := by
    obtain heq | hmem := List.mem_cons.mp hmem
    · cases heq
    · exact h.timing t d hmem

theorem inv_expire (h : Inv s) {d : Millis} (hd : .issued token .password d ∈ s.log) :
    Inv { s with attempts := s.attempts.expire s.now token (s.now + pendingLinkTtl) } where
  orderly := h.orderly
  record := h.record
  counter t e he := by
    obtain he | ⟨rfl, -, hexp⟩ := Expiring.expire_eq_some he
    · exact h.counter t e he
    · refine ⟨_, d, hd, fun u hu ↦ ?_⟩
      rw [hexp] at hu
      obtain rfl := Option.some.inj hu
      exact h.timing t d hd
  numbers t j n hmem hlive := by
    rw [Expiring.get_expire (Int.lt_add_of_pos_right _ (by decide))]
    exact h.numbers t j n hmem hlive
  timing := h.timing

theorem inv_write (h : Inv s) {pending : Pending} {kept : Option Millis}
    (hlive : (s.readPending token).isSome = true)
    (hkept : ∀ e, s.links token = some e → e.live s.now = true → kept = e.expiresAt)
    (hknown : Known s.log token { pending with passwordVerified := true }) :
    Inv { s with
      links := s.links.set token { pending with passwordVerified := true } kept } := by
  obtain ⟨old, hr⟩ := Option.isSome_iff_exists.mp hlive
  obtain ⟨e₀, he₀, hlive₀, -⟩ := readPending_eq_some hr
  obtain ⟨-, hfresh, d₀, hd₀, hexp₀⟩ := h.record token e₀ he₀
  refine ⟨h.orderly, ?_, h.counter, ?_, h.timing⟩
  · intro t e he
    by_cases ht : t = token
    · subst ht
      obtain rfl := Option.some.inj (Expiring.set_self.symm.trans he)
      obtain ⟨d, hd⟩ := hknown.1
      obtain ⟨-, rfl⟩ := issued_unique h.orderly hd hd₀
      exact ⟨hknown, hfresh, d, hd, (hkept e₀ he₀ hlive₀).trans hexp₀⟩
    · exact h.record t e ((Expiring.set_of_ne ht).symm.trans he)
  · intro t j n hmem hread
    refine h.numbers t j n hmem ?_
    by_cases ht : t = token
    · rw [ht]
      exact hlive
    · rwa [Store.readPending, Expiring.get_set_of_ne ht] at hread

theorem inv_consume {time : Millis} {won : Bool} (h : Inv s)
    (hadm : Admissible s.log (.burned token i time won)) :
    Inv { s with
      links := s.links.del token
      log := .burned token i time won :: s.log } where
  orderly := h.orderly.cons hadm
  record t e he := by
    by_cases ht : t = token
    · subst ht
      exact absurd (Expiring.del_self.symm.trans he) (Option.some_ne_none e).symm
    · obtain ⟨hknown, hfresh, d, hd, hexp⟩ :=
        h.record t e ((Expiring.del_of_ne ht).symm.trans he)
      refine ⟨hknown.cons, ?_, d, List.mem_cons_of_mem _ hd, hexp⟩
      intro j u w hmem
      obtain heq | hmem := List.mem_cons.mp hmem
      · cases heq
        exact ht rfl
      · exact hfresh j u w hmem
  counter t e he := by
    obtain ⟨mode, d, hd, hexp⟩ := h.counter t e he
    exact ⟨mode, d, List.mem_cons_of_mem _ hd, hexp⟩
  numbers t j n hmem hlive := by
    obtain heq | hmem := List.mem_cons.mp hmem
    · cases heq
    · refine h.numbers t j n hmem ?_
      by_cases ht : t = token
      · rw [Store.readPending, ht, Expiring.get_del_self] at hlive
        cases hlive
      · rwa [Store.readPending, Expiring.get_del_of_ne ht] at hlive
  timing t d hmem := by
    obtain heq | hmem := List.mem_cons.mp hmem
    · cases heq
    · exact h.timing t d hmem

theorem inv_clear {j : Nat} {time : Millis} {won : Bool} (h : Inv s)
    (hburned : .burned token j time won ∈ s.log) :
    Inv { s with attempts := s.attempts.del token } where
  orderly := h.orderly
  record := h.record
  counter t e he := by
    by_cases ht : t = token
    · subst ht
      exact absurd (Expiring.del_self.symm.trans he) (Option.some_ne_none e).symm
    · exact h.counter t e ((Expiring.del_of_ne ht).symm.trans he)
  numbers t i n hmem hlive := by
    by_cases ht : t = token
    · subst ht
      obtain ⟨pending, hr⟩ := Option.isSome_iff_exists.mp hlive
      exact absurd hburned ((h.good hr).2.1 j time won)
    · rw [Expiring.get_del_of_ne ht]
      exact h.numbers t i n hmem hlive
  timing := h.timing

/-- A step that is not overtaken keeps the invariant. -/
theorem inv_effect (h : Inv s) (ha : Assert s.log i k.token k.action) (hok : timely s k = true) :
    Inv (effect compare s i k out) := by
  have hadm : ∀ x, note compare s i k out = some x → Admissible s.log x := fun x ↦
    admissible_note h ha hok
  obtain ⟨token, a⟩ := k
  cases a with
  | readConfirm | readApprove | readCancel =>
    refine h.append hadm fun x hx ↦ ?_
    obtain ⟨pending, -, rfl⟩ := Option.map_eq_some_iff.mp hx
    trivial
  | compare | verify =>
    refine h.append hadm fun x hx ↦ ?_
    obtain rfl := Option.some.inj hx
    trivial
  | count pending user answer =>
    obtain ⟨d, hd⟩ := ha.1.1
    exact inv_count h ⟨_, d, hd⟩ (hadm _ rfl)
  | expire pending user answer =>
    obtain ⟨⟨⟨⟨d, hd⟩, -⟩, hmode, -⟩, -⟩ := ha
    exact inv_expire h (hmode ▸ hd)
  | write pending =>
    refine inv_write h hok (fun e he hlive ↦ ?_) ha
    simp only [he, Option.bind_some, hlive, if_true]
  | consume link => exact inv_consume h (hadm _ rfl)
  | clear link =>
    cases link with
    | none =>
      obtain ⟨j, t, won, hmem⟩ := ha
      exact inv_clear h hmem
    | some link =>
      obtain ⟨-, ⟨t, hmem⟩, -⟩ := ha
      exact inv_clear h hmem
  | create link user =>
    have hkeep : Inv { s with
        log := (note compare s i ⟨token, .create link user⟩ out).toList ++ s.log } := by
      refine h.append hadm fun x hx ↦ ?_
      obtain ⟨_, -, rfl⟩ := Option.map_eq_some_iff.mp hx
      trivial
    cases hi : s.identities.insert? (s.newIdentity link out.identityId) with
    | none => refine hkeep.congr ?_ ?_ ?_ rfl <;> simp only [effect, write, hi]
    | some ids => refine hkeep.congr ?_ ?_ ?_ rfl <;> simp only [effect, write, hi]
  | updateUser => exact h.congr rfl rfl rfl rfl
  | loadUser | throttle | findConfig | findIdentity | findSameProvider | findUser => exact h

theorem inv_store {link : PendingLink} (h : Inv s) (hnew : ∀ x ∈ s.log, x.token ≠ token) :
    Inv { s with
      links := s.links.set token { toPendingLink := link } (some (s.now + ttl link.mode))
      log := .issued token link.mode (s.now + ttl link.mode) :: s.log } where
  orderly := h.orderly.cons fun mode d hmem ↦ hnew _ hmem rfl
  record t e he := by
    by_cases ht : t = token
    · subst ht
      obtain rfl := Option.some.inj (Expiring.set_self.symm.trans he)
      refine ⟨⟨⟨_, List.mem_cons_self⟩, fun hv ↦ absurd hv Bool.false_ne_true⟩, ?_, _,
        List.mem_cons_self, rfl⟩
      intro j u won hmem
      obtain heq | hmem := List.mem_cons.mp hmem
      · cases heq
      · exact hnew _ hmem rfl
    · obtain ⟨hknown, hfresh, d, hd, hexp⟩ :=
        h.record t e ((Expiring.set_of_ne ht).symm.trans he)
      refine ⟨hknown.cons, ?_, d, List.mem_cons_of_mem _ hd, hexp⟩
      intro j u won hmem
      obtain heq | hmem := List.mem_cons.mp hmem
      · cases heq
      · exact hfresh j u won hmem
  counter t e he := by
    obtain ⟨mode, d, hd, hexp⟩ := h.counter t e he
    exact ⟨mode, d, List.mem_cons_of_mem _ hd, hexp⟩
  numbers t j n hmem hlive := by
    obtain heq | hmem := List.mem_cons.mp hmem
    · cases heq
    · have hne : t ≠ token := hnew _ hmem
      refine h.numbers t j n hmem ?_
      rwa [Store.readPending, Expiring.get_set_of_ne hne] at hlive
  timing t d hmem := by
    obtain heq | hmem := List.mem_cons.mp hmem
    · obtain ⟨rfl, hmode, rfl⟩ := Note.issued.inj heq
      rw [← hmode]
      exact le_rfl
    · exact h.timing t d hmem

theorem inv_time {now : Millis} (h : Inv s) (hle : s.now ≤ now) : Inv { s with now } where
  orderly := h.orderly
  record := h.record
  counter := h.counter
  numbers t j n hmem hlive := by
    obtain ⟨pending, hr⟩ := Option.isSome_iff_exists.mp hlive
    obtain ⟨e, he, hlive, -⟩ := readPending_eq_some hr
    obtain ⟨-, -, d, hd, hexp⟩ := h.record t e he
    have hread : (s.readPending t).isSome = true :=
      Option.isSome_iff_exists.mpr ⟨pending, Expiring.get_anti hle hr⟩
    have hcount := h.numbers t j n hmem hread
    cases ha : s.attempts t with
    | none =>
      rw [Expiring.get, ha, Option.bind_none] at hcount ⊢
      exact hcount
    | some a =>
      -- the counter is still there, for it does not expire before the record
      have halive : a.live now = true := by
        obtain ⟨mode, d', hd', hafter⟩ := h.counter t a ha
        obtain ⟨-, rfl⟩ := issued_unique h.orderly hd' hd
        rw [Entry.live, hexp] at hlive
        cases hu : a.expiresAt with
        | none => rw [Entry.live, hu, Option.all_none]
        | some u =>
          rw [Entry.live, hu]
          exact decide_eq_true (lt_of_lt_of_le (of_decide_eq_true hlive) (hafter u hu))
      have hvalue : s.attempts.get now t = some a.value :=
        Expiring.get_eq_some.mpr ⟨a, ha, halive, rfl⟩
      rw [Expiring.get_anti hle hvalue] at hcount
      rw [hvalue]
      exact hcount
  timing t d hd := (h.timing t d hd).trans (Int.add_le_add_right hle _)

theorem inv_change {s' : Store} {c : Change} (h : Inv s) (hc : change s c = some s') :
    Inv s' ∧ ∀ j t a, Assert s.log j t a → Assert s'.log j t a := by
  cases c with
  | store token link =>
    obtain ⟨hnew, hc⟩ := Option.ite_none_right_eq_some.mp hc
    obtain rfl := Option.some.inj hc
    exact ⟨inv_store h hnew, fun j t a ha ↦ ha.cons h.orderly trivial⟩
  | time now =>
    obtain ⟨hle, hc⟩ := Option.ite_none_right_eq_some.mp hc
    obtain rfl := Option.some.inj hc
    exact ⟨inv_time h hle, fun _ _ _ ha ↦ ha⟩
  | tables tables =>
    obtain rfl := Option.some.inj hc
    exact ⟨h.congr rfl rfl rfl rfl, fun _ _ _ ha ↦ ha⟩

end

/-! ## Every run -/

section

variable (compare : String → String → Bool)

theorem program_keeps : (program compare).Keeps Undisturbed Inv
    fun s i k ↦ Assert s.log i k.token k.action where
  spawn s i a _ := by
    obtain ⟨token, op⟩ := a
    cases op <;> trivial
  act p i k out s' k' hp hk hact hok := by
    obtain ⟨rfl, rfl⟩ := Prod.mk.inj (Option.some.inj hact)
    have hok : timely p.store k = true := by simpa [Undisturbed, undisturbed, hk] using hok
    have ha := hp.2 i k hk
    refine ⟨inv_effect hp.1 ha hok, ?_, ?_⟩
    · intro l hl
      obtain ⟨a', hnext, rfl⟩ := Option.map_eq_some_iff.mp hl
      exact assert_next hp.1 ha hok hnext
    · intro j l hji hl
      exact assert_history hp.1 (Ne.symm hji) ha (hp.2 j l hl)
  abort p i k hp _ := ⟨hp.1, fun j l _ hl ↦ hp.2 j l hl⟩
  env s c s' h hc := by
    obtain ⟨hinv, hassert⟩ := inv_change h hc
    exact ⟨hinv, fun j l hl ↦ hassert j l.token l.action hl⟩

def Store.initial (tables : Tables) (now : Millis) : Store := { tables with now }

theorem inv_initial (tables : Tables) (now : Millis) : Inv (.initial tables now) where
  orderly := .nil
  record _ _ he := by cases he
  counter _ _ he := by cases he
  numbers _ _ _ hmem := by cases hmem
  timing _ _ hmem := by cases hmem

variable {compare} {tables : Tables} {now : Millis} {p : Pool Store Call}
  {es : List (Event (String × Operation) Outside Change)}

/-- **Links are confirmed once in a run in which nothing is written after the record is
gone.** -/
theorem run_confirmedOnce
    (hr : Run (program compare).step Undisturbed (Program.idle Call (.initial tables now)) es p) :
    SingleUse p.store.log :=
  singleUse ((program_keeps compare).run (Program.holds_idle (inv_initial tables now)) hr).1.orderly

end

/-! ## Examples -/

def anaLink (mode : LinkMode) : PendingLink where
  mode
  userId := "u1"
  orgId := "o1"
  userEmail := "ana@x"
  userName := "Ana"
  ssoConfigId := "c1"
  provider := "oidc"
  providerName := "Okta"
  presetId := none
  subject := "s1"
  externalId := none
  email := "ana@x"
  name := none
  picture := none

def anaTables (codes : List String) : Tables where
  users := ⟨[
    { id := "u1", orgId := "o1", email := "ana@x", passwordHash := some "secret",
      mfaBackupCodes := codes }], by simp⟩
  ssoConfigs := ⟨[{ id := "c1", orgId := "o1" }], by decide⟩

def plain (text hash : String) : Bool := text = hash

def sentTwice : List (Event (String × Operation) Outside Change) :=
  [.env (.store "t" (anaLink .password)),
    .spawn 0 ("t", .confirmPendingLink (.password "secret")),
    .spawn 1 ("t", .confirmPendingLink (.password "secret")),
    .act 0 {}, .act 1 {}, .act 0 {}, .act 1 {}, .act 0 {}, .act 1 {}, .act 0 {}, .act 1 {},
    .act 0 {}, .act 0 {}, .act 1 {}, .act 0 {}, .act 0 {}, .act 0 {}, .act 0 {}, .act 0 {},
    .act 0 {}, .act 0 {}]

theorem run_confirmedOnce_sentTwice : ∃ p : Pool Store Call, SingleUse p.store.log ∧
    p.store.log.countP (Note.isLink "t") = 1 ∧ attempted p.store.log "t" = [1, 2] := by
  have h : execIf (program plain).step undisturbed
      (Program.idle Call (.initial (anaTables []) 0)) sentTwice = some _ := rfl
  exact ⟨_, run_confirmedOnce (run_of_execIf h), rfl, rfl⟩

def mailOpened : List (Event (String × Operation) Outside Change) :=
  [.env (.store "t" (anaLink .emailApproval)), .spawn 0 ("t", .approvePendingLink),
    .act 0 {}, .act 0 {}, .act 0 {}, .act 0 {}, .act 0 {}, .act 0 {}, .act 0 {}, .act 0 {},
    .act 0 {}]

/-- A link that was mailed is made without a password. -/
theorem linked_without_password : ∃ p : Pool Store Call,
    Run (program plain).step free (Program.idle Call (.initial (anaTables []) 0)) mailOpened p ∧
      ¬ ∀ token method r, .linked token method :: r <:+ p.store.log →
        ∃ n enrolled, .passwordChecked token n enrolled true ∈ r := by
  have h : exec (program plain).step (Program.idle Call (.initial (anaTables []) 0)) mailOpened =
      some _ := rfl
  refine ⟨_, run_of_exec h, ?_⟩
  intro hall
  obtain ⟨n, enrolled, hmem⟩ := hall "t" "email_approved"
    [.burned "t" 0 0 true, .found "t" 0, .issued "t" .emailApproval approvalLinkTtl] ⟨[], rfl⟩
  simp at hmem

end Shellius.Sso.PendingLinks
