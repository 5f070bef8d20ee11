import Shellius.Lib.OneTime
import Shellius.Lib.Pool
import Shellius.Lib.Table
import Shellius.Auth.SecondFactor
import Shellius.Text

/-!
# Links that are used once

`inviteService`: the tokens behind invitations, password resets and one-click
approvals, each database step on its own.

A token is consumed by `verifyAndConsume` or by `getResourceToken`.  Both find
the row, check it, and mark it as used in a second step; the second step of
`getResourceToken` marks the row only if it is still unused, the one of
`verifyAndConsume` marks it whatever has become of it.  `createInvite` first
lets the unused tokens of the same kind expire, and then creates its own; it
*supersedes* the tokens of the same kind that there are by then.
-/

namespace Shellius.Invite

open Lib

/-! ## The functions -/

/-- A row of `UserToken`, with what it is bound to. -/
structure Token extends UserToken where
  resourceId : Option Id := none

structure Refusals where
  invalid : ApiError
  used : ApiError
  expired : ApiError

/-- The errors of `verifyAndConsume`. -/
def consumeRefusals : Refusals where
  invalid := ⟨400, "Invalid or expired token", none⟩
  used := ⟨400, "Token has already been used", none⟩
  expired := ⟨400, "Token has expired", none⟩

/-- The errors of `getResourceToken`. -/
def resourceRefusals : Refusals where
  invalid := ⟨400, "Invalid or expired link", none⟩
  used := ⟨409, "This link has already been used", none⟩
  expired := ⟨410, "This link has expired", none⟩

/-- The checks on the row found for a link. -/
def checkToken (refusals : Refusals) (now : Millis) (type : String) :
    Option Token → Except ApiError Token
  | none => .error refusals.invalid
  | some record =>
    if record.type ≠ type then .error refusals.invalid
    else if record.usedAt ≠ none then .error refusals.used
    else if record.expiresAt < now then .error refusals.expired
    else .ok record

def hourMs : Int := 60 * 60 * 1000

section

variable (crypto : Crypto) (now : Millis) (tokens : List Token)

/-- The row of a link is found by the hash of the token in it. -/
def findToken (refusals : Refusals) (rawToken type : String) : Except ApiError Token :=
  if utf16Length rawToken ≠ 64 then .error refusals.invalid
  else
    checkToken refusals now type
      (tokens.find? fun t ↦ t.tokenHash = crypto.sha256 rawToken)

/-- The row is used from now on. -/
def markUsed (t : Token) : Token := { t with usedAt := some now }

def revokeAllForUser (userId : Id) (type : String) : List Token :=
  tokens.map fun t ↦
    if t.userId = userId ∧ t.type = type ∧ t.usedAt = none ∧ now < t.expiresAt then
      { t with expiresAt := now }
    else t

def newToken (id userId : Id) (type : String) (resourceId : Option Id) (ttlHours : Int)
    (rawToken : String) : Token where
  id
  userId
  type
  tokenHash := crypto.sha256 rawToken
  resourceId
  expiresAt := now + ttlHours * hourMs

end

/-! ## The program -/

/-- A call returned for a token as if it were good. -/
structure Success where
  tokenId : Id
  time : Millis
  expiresAt : Millis

structure Store where
  now : Millis
  tokens : List Token := []
  drawnIds : List Id := []
  /-- The tokens that were consumed, and those that were superseded. -/
  log : List (Use Id) := []
  successes : List Success := []

inductive Operation
  | verifyAndConsume (rawToken type : String)
  | getResourceToken (rawToken type : String) (consume : Bool)
  | createInvite (userId : Id) (type : String) (ttlHours : Int) (rawToken : String)
  | createResourceToken (userId : Id) (type : String) (resourceId : Id) (ttlHours : Int)
      (rawToken : String)

inductive Call
  | /-- `verifyAndConsume` finds the row and checks it. -/
    find (rawToken type : String)
  | markUsed (record : Token)
  | /-- `getResourceToken` finds the row and checks it. -/
    findResource (rawToken type : String) (consume : Bool)
  | markUnused (record : Token)
  | /-- `createInvite` revokes the tokens of the same kind. -/
    revoke (userId : Id) (type : String) (ttlHours : Int) (rawToken : String)
  | /-- A row is created, by `createInvite` if it is not bound to anything. -/
    create (userId : Id) (type : String) (resourceId : Option Id) (ttlHours : Int)
      (rawToken : String)

def start : Operation → Call
  | .verifyAndConsume rawToken type => .find rawToken type
  | .getResourceToken rawToken type consume => .findResource rawToken type consume
  | .createInvite userId type ttlHours rawToken => .revoke userId type ttlHours rawToken
  | .createResourceToken userId type resourceId ttlHours rawToken =>
    .create userId type (some resourceId) ttlHours rawToken

section

variable (crypto : Crypto) (s : Store)

def tokenById (id : Id) : Option Token := lookup (fun t : Token ↦ t.id) id s.tokens

/-- The call returns for a token. -/
def succeed (t : Token) : Store :=
  { s with successes := ⟨t.id, s.now, t.expiresAt⟩ :: s.successes }

/-- The token is marked as used, and the call returns for it. -/
def consume (t : Token) : Store :=
  { succeed s t with
    tokens := modify (fun t ↦ t.id) t.id (Invite.markUsed s.now) s.tokens
    log := .redeemed t.id :: s.log }

def keysOfKind (userId : Id) (type : String) : List Id :=
  (s.tokens.filter fun t ↦ t.userId = userId ∧ t.type = type).map fun t ↦ t.id

/-- The new row is refused: `tokenHash` is unique. -/
def Clashes (rawToken : String) : Prop := ∃ t ∈ s.tokens, t.tokenHash = crypto.sha256 rawToken

instance (rawToken : String) : Decidable (Clashes crypto s rawToken) :=
  inferInstanceAs (Decidable (∃ t ∈ s.tokens, _))

/-- The store after a step of a call; `id` is the key of a row it creates. -/
def effect (id : Id) : Call → Store
  | .find .. => s
  | .markUsed record =>
    match tokenById s record.id with
    | none => s -- the update of a row that is gone throws
    | some t => consume s t
  | .findResource rawToken type consume =>
    match findToken crypto s.now s.tokens resourceRefusals rawToken type with
    | .error _ => s
    | .ok record => if consume then s else succeed s record
  | .markUnused record =>
    match tokenById s record.id with
    | none => s
    | some t => if t.usedAt = none then consume s t else s
  | .revoke userId type _ _ => { s with tokens := revokeAllForUser s.now s.tokens userId type }
  | .create userId type resourceId ttlHours rawToken =>
    if Clashes crypto s rawToken then s
    else
      { s with
        tokens := s.tokens ++
          [newToken crypto s.now id userId type resourceId ttlHours rawToken]
        drawnIds := id :: s.drawnIds
        log :=
          if resourceId = none then .withdrawn (keysOfKind s userId type) :: s.log
          else s.log }

def next : Call → Option Call
  | .find rawToken type =>
    match findToken crypto s.now s.tokens consumeRefusals rawToken type with
    | .error _ => none
    | .ok record => some (.markUsed record)
  | .findResource rawToken type consume =>
    match findToken crypto s.now s.tokens resourceRefusals rawToken type with
    | .error _ => none
    | .ok record => if consume then some (.markUnused record) else none
  | .revoke userId type ttlHours rawToken => some (.create userId type none ttlHours rawToken)
  | .markUsed _ | .markUnused _ | .create .. => none

inductive Change
  | tick (now : Millis)
  | deleteUser (userId : Id)

def program : Program Store Operation Call Id Change where
  start
  act _ s k id := if id ∈ s.drawnIds then none else some (effect crypto s id k, next crypto s k)
  env s
    | .tick now => if s.now ≤ now then some { s with now } else none
    | .deleteUser userId => some { s with tokens := s.tokens.filter fun t ↦ t.userId ≠ userId }

/-- The token would still pass the checks, and was not superseded this very
millisecond. -/
def Valid (t : Token) : Prop :=
  t.usedAt = none ∧ (s.now < t.expiresAt ∨ s.now = t.expiresAt ∧ ¬ Spent s.log t.id)

instance (t : Token) : Decidable (Valid s t) := inferInstanceAs (Decidable (_ ∧ _))

/-- The step finds what its call counts on: the token to be marked is valid still,
or used, in which case `getResourceToken` leaves it alone; and the kind for
which an invitation is created has no token left that works. -/
def timely : Call → Bool
  | .markUsed record => (tokenById s record.id).all fun t ↦ Valid s t
  | .markUnused record => (tokenById s record.id).all fun t ↦ t.usedAt ≠ none ∨ Valid s t
  | .create userId type none _ _ =>
    s.tokens.all fun t ↦ t.userId = userId → t.type = type → t.usedAt = none → t.expiresAt ≤ s.now
  | _ => true

end

/-- The step is not overtaken by another call or by time. -/
def undisturbed (p : Pool Store Call) : Event Operation Id Change → Bool
  | .act i _ => (p.calls i).all (timely p.store)
  | _ => true

/-- Runs in which no step is overtaken. -/
def Undisturbed (p : Pool Store Call) (e : Event Operation Id Change) (_ : Pool Store Call) :
    Prop := undisturbed p e = true

section

variable {crypto : Crypto} {s t : Store} {k k' : Call} {id : Id} {i : Nat} {refusals : Refusals}
  {now : Millis} {tokens : List Token} {record : Token} {rawToken type : String}

theorem findToken_eq_ok (h : findToken crypto now tokens refusals rawToken type = .ok record) :
    record ∈ tokens ∧ record.type = type ∧ record.usedAt = none ∧ now ≤ record.expiresAt := by
  unfold findToken at h
  split at h
  · cases h
  · cases hf : tokens.find? fun t ↦ t.tokenHash = crypto.sha256 rawToken with
    | none => simp [hf, checkToken] at h
    | some t =>
      simp only [hf, checkToken] at h
      split at h
      · cases h
      · rename_i htype
        split at h
        · cases h
        · rename_i hused
          split at h
          · cases h
          · rename_i hexp
            obtain rfl := Except.ok.inj h
            exact ⟨List.mem_of_find?_eq_some hf, not_not.mp htype, not_not.mp hused,
              Int.not_lt.mp hexp⟩

/-! ## The invariant -/

structure Inv (s : Store) : Prop where
  /-- `id` is a primary key. -/
  key : (s.tokens.map fun t ↦ t.id).Nodup
  ids : ∀ t ∈ s.tokens, t.id ∈ s.drawnIds
  /-- So is every key that is spent. -/
  drawnIds : ∀ id, Spent s.log id → id ∈ s.drawnIds
  /-- A token that is spent is used, or its time has come. -/
  dead : ∀ t ∈ s.tokens, Spent s.log t.id → t.usedAt ≠ none ∨ t.expiresAt ≤ s.now
  oneTime : OneTime s.log
  inTime : ∀ c ∈ s.successes, c.time ≤ c.expiresAt

theorem Inv.succeed (h : Inv s) (ht : s.now ≤ record.expiresAt) : Inv (succeed s record) :=
  { h with
    inTime := fun c hc ↦ by
      rcases List.mem_cons.mp hc with rfl | hc
      · exact ht
      · exact h.inTime c hc }

theorem Inv.not_spent (h : Inv s) (hmem : record ∈ s.tokens) (hv : Valid s record) :
    ¬ Spent s.log record.id := by
  intro hs
  rcases h.dead record hmem hs with hused | hexp
  · exact hused hv.1
  · rcases hv.2 with hlt | ⟨-, hno⟩
    · exact absurd hexp (Int.not_le.mpr hlt)
    · exact hno hs

theorem Inv.consume (h : Inv s) (hmem : record ∈ s.tokens) (hv : Valid s record) :
    Inv (consume s record) where
  key := by
    have hsame : (Invite.consume s record).tokens.map (fun t ↦ t.id) = s.tokens.map fun t ↦ t.id :=
      map_modify fun _ _ _ ↦ rfl
    rw [hsame]
    exact h.key
  ids t ht := by
    rcases mem_modify.mp ht with ⟨ht, -⟩ | ⟨t₀, ht₀, -, rfl⟩
    · exact h.ids t ht
    · exact h.ids t₀ ht₀
  drawnIds id hs := by
    rcases spent_redeemed.mp hs with rfl | hs
    · exact h.ids record hmem
    · exact h.drawnIds id hs
  dead t ht hs := by
    rcases mem_modify.mp ht with ⟨ht, hne⟩ | ⟨t₀, -, -, rfl⟩
    · rcases spent_redeemed.mp hs with he | hs
      · exact absurd he.symm hne
      · exact h.dead t ht hs
    · exact .inl (Option.some_ne_none _)
  oneTime := oneTime_redeemed.mpr ⟨h.not_spent hmem hv, h.oneTime⟩
  inTime := by
    have hle : s.now ≤ record.expiresAt := by
      rcases hv.2 with hlt | ⟨he, -⟩
      · exact hlt.le
      · exact he.le
    exact (h.succeed hle).inTime

theorem Inv.revoke (h : Inv s) {userId : Id} :
    Inv { s with tokens := revokeAllForUser s.now s.tokens userId type } :=
  { h with
    key := by
      have hsame : (revokeAllForUser s.now s.tokens userId type).map (fun t ↦ t.id) =
          s.tokens.map fun t ↦ t.id := by
        rw [revokeAllForUser, List.map_map]
        apply List.map_congr_left
        intro t _
        show (if _ then _ else _ : Token).id = t.id
        split <;> rfl
      rw [hsame]
      exact h.key
    ids := fun t ht ↦ by
      obtain ⟨t₀, ht₀, rfl⟩ := List.mem_map.mp ht
      split <;> exact h.ids t₀ ht₀
    dead := fun t ht hs ↦ by
      obtain ⟨t₀, ht₀, rfl⟩ := List.mem_map.mp ht
      split at hs
      · rename_i hlive
        rw [if_pos hlive]
        exact .inr (le_refl _)
      · rename_i hno
        rw [if_neg hno]
        exact h.dead t₀ ht₀ hs }

theorem Inv.supersede (h : Inv s) {ids : List Id} (hdrawn : ∀ j ∈ ids, j ∈ s.drawnIds)
    (hids : ∀ t ∈ s.tokens, t.id ∈ ids → t.usedAt ≠ none ∨ t.expiresAt ≤ s.now) :
    Inv { s with log := .withdrawn ids :: s.log } where
  key := h.key
  ids := h.ids
  drawnIds j hs := by
    rcases spent_withdrawn.mp hs with hj | hs
    · exact hdrawn j hj
    · exact h.drawnIds j hs
  dead t ht hs := by
    rcases spent_withdrawn.mp hs with hj | hs
    · exact hids t ht hj
    · exact h.dead t ht hs
  oneTime := oneTime_withdrawn.mpr h.oneTime
  inTime := h.inTime

theorem Inv.create (h : Inv s) (record : Token) (hid : record.id ∉ s.drawnIds) :
    Inv { s with tokens := s.tokens ++ [record], drawnIds := record.id :: s.drawnIds } where
  key := by
    rw [List.map_append, List.map_singleton]
    refine h.key.append (List.nodup_singleton _) fun j hj hj' ↦ hid ?_
    obtain ⟨t, ht, rfl⟩ := List.mem_map.mp hj
    exact List.mem_singleton.mp hj' ▸ h.ids t ht
  ids t ht := by
    rcases List.mem_append.mp ht with ht | ht
    · exact List.mem_cons_of_mem _ (h.ids t ht)
    · rw [List.mem_singleton.mp ht]
      exact List.mem_cons_self
  drawnIds j hs := List.mem_cons_of_mem _ (h.drawnIds j hs)
  dead t ht hs := by
    rcases List.mem_append.mp ht with ht | ht
    · exact h.dead t ht hs
    · rw [List.mem_singleton.mp ht] at hs
      exact absurd (h.drawnIds _ hs) hid
  oneTime := h.oneTime
  inTime := h.inTime

theorem Inv.drawn_of_keysOfKind (h : Inv s) {userId : Id} :
    ∀ j ∈ keysOfKind s userId type, j ∈ s.drawnIds := by
  intro j hj
  obtain ⟨t, ht, rfl⟩ := List.mem_map.mp hj
  exact h.ids t (List.mem_of_mem_filter ht)

/-- A step that is not overtaken keeps the invariant. -/
theorem Inv.effect (h : Inv s) (hid : id ∉ s.drawnIds)
    (hok : timely s k = true) : Inv (effect crypto s id k) := by
  cases k with
  | find => exact h
  | markUsed record =>
    simp only [Invite.effect]
    cases hrow : tokenById s record.id with
    | none => exact h
    | some t =>
      have hv : Valid s t := by simpa [timely, hrow] using hok
      exact h.consume (lookup_spec hrow).1 hv
  | findResource rawToken type cons =>
    simp only [Invite.effect]
    cases hf : findToken crypto s.now s.tokens resourceRefusals rawToken type with
    | error e => exact h
    | ok record =>
      cases cons with
      | false => exact h.succeed (findToken_eq_ok hf).2.2.2
      | true => exact h
  | markUnused record =>
    simp only [Invite.effect]
    cases hrow : tokenById s record.id with
    | none => exact h
    | some t =>
      show Inv (if t.usedAt = none then Invite.consume s t else s)
      split
      · rename_i hunused
        have hv : Valid s t := by simpa [timely, hrow, hunused] using hok
        exact h.consume (lookup_spec hrow).1 hv
      · exact h
  | revoke => exact h.revoke
  | create userId type resourceId ttlHours rawToken =>
    simp only [Invite.effect]
    split
    · exact h
    · cases resourceId with
      | some resourceId =>
        exact h.create (newToken crypto s.now id userId type (some resourceId) ttlHours
          rawToken) hid
      | none =>
        have hids : ∀ t ∈ s.tokens, t.id ∈ keysOfKind s userId type →
            t.usedAt ≠ none ∨ t.expiresAt ≤ s.now := by
          intro t ht hj
          obtain ⟨t', ht', he⟩ := List.mem_map.mp hj
          obtain ⟨hmem, hkind⟩ := List.mem_filter.mp ht'
          obtain rfl : t' = t := List.inj_on_of_nodup_map h.key hmem ht he
          obtain ⟨huser, htype⟩ := of_decide_eq_true hkind
          by_cases hused : t'.usedAt = none
          · exact .inr (of_decide_eq_true (List.all_eq_true.mp hok t' ht) huser htype hused)
          · exact .inl hused
        exact (h.supersede h.drawn_of_keysOfKind hids).create
          (newToken crypto s.now id userId type none ttlHours rawToken) hid

theorem Inv.tick (h : Inv s) (hle : s.now ≤ now) : Inv { s with now } :=
  { h with dead := fun t ht hs ↦ (h.dead t ht hs).imp_right fun hexp ↦ hexp.trans hle }

theorem Inv.deleteUser (h : Inv s) {userId : Id} :
    Inv { s with tokens := s.tokens.filter fun t ↦ t.userId ≠ userId } :=
  { h with
    key := (List.filter_sublist.map _).nodup h.key
    ids := fun t ht ↦ h.ids t (List.mem_of_mem_filter ht)
    dead := fun t ht ↦ h.dead t (List.mem_of_mem_filter ht) }

/-- Nothing is asserted of the calls: what they found is checked again by
`timely`. -/
theorem program_keeps : (program crypto).Keeps Undisturbed Inv fun _ _ _ ↦ True where
  spawn _ _ _ _ := trivial
  act p i k id s' k' hp hk hact hok := by
    simp only [program] at hact
    split at hact
    · cases hact
    · rename_i hid
      obtain ⟨rfl, -⟩ := Prod.mk.inj (Option.some.inj hact)
      have hok : timely p.store k = true := by simpa [Undisturbed, undisturbed, hk] using hok
      exact ⟨hp.1.effect hid hok, fun _ _ ↦ trivial, fun _ _ _ _ ↦ trivial⟩
  abort p i k hp _ := ⟨hp.1, fun _ _ _ _ ↦ trivial⟩
  env s d s' h henv := by
    cases d with
    | tick now =>
      simp only [program] at henv
      split at henv
      · rename_i hle
        obtain rfl := Option.some.inj henv
        exact ⟨h.tick hle, fun _ _ _ ↦ trivial⟩
      · cases henv
    | deleteUser userId =>
      obtain rfl := Option.some.inj henv
      exact ⟨h.deleteUser, fun _ _ _ ↦ trivial⟩

end

/-! ## Every link works once -/

/-- What is promised of the links: each is consumed by one call at most, none is
consumed after it was consumed or superseded, and no call succeeds after the
token has expired. -/
structure SingleUse (s : Store) : Prop where
  atMostOnce : ∀ id, s.log.count (.redeemed id) ≤ 1
  neverAgain : OneTime s.log
  inTime : ∀ c ∈ s.successes, c.time ≤ c.expiresAt

structure Initial (s : Store) : Prop where
  key : (s.tokens.map fun t ↦ t.id).Nodup
  drawnIds : ∀ t ∈ s.tokens, t.id ∈ s.drawnIds
  log : s.log = []
  successes : s.successes = []

theorem Initial.inv {s : Store} (h : Initial s) : Inv s where
  key := h.key
  ids := h.drawnIds
  drawnIds id hs := by simp [h.log] at hs
  dead t _ hs := by simp [h.log] at hs
  oneTime := by simp [h.log]
  inTime c hc := by simp [h.successes] at hc

/-- **Links work once in every run in which no step is overtaken.** -/
theorem run_singleUse {crypto : Crypto} {s : Store} {p : Pool Store Call}
    {es : List (Event Operation Id Change)} (h₀ : Initial s)
    (hr : Run (program crypto).step Undisturbed (Program.idle Call s) es p) :
    SingleUse p.store := by
  have hp := program_keeps.run (Program.holds_idle h₀.inv) hr
  exact ⟨fun _ ↦ hp.1.oneTime.count_le_one, hp.1.oneTime, hp.1.inTime⟩

def plain : Crypto := ⟨fun _ _ _ ↦ false, id⟩

/-- A token as `randomBytes(32).toString('hex')` draws it. -/
def hexToken (c : Char) : String := .ofList (List.replicate 64 c)

def noTokens : Store := { now := 0 }

theorem noTokens_initial : Initial noTokens :=
  ⟨by simp [noTokens], by simp [noTokens], rfl, rfl⟩

def resetTwice : List (Event Operation Id Change) :=
  [.spawn 0 (.createInvite "ana" "password_reset" 1 (hexToken 'a')), .act 0 "-", .act 0 "t1",
    .env (.tick 60000), .spawn 0 (.createInvite "ana" "password_reset" 1 (hexToken 'b')),
    .act 0 "-", .act 0 "t2", .env (.tick 120000),
    .spawn 0 (.verifyAndConsume (hexToken 'a') "password_reset"), .act 0 "-",
    .spawn 0 (.verifyAndConsume (hexToken 'b') "password_reset"), .act 0 "-", .act 0 "-"]

theorem run_singleUse_ana : Initial noTokens ∧ ∃ p : Pool Store Call,
    SingleUse p.store ∧ p.store.log = [.redeemed "t2", .withdrawn ["t1"], .withdrawn []] := by
  have h : execIf (program plain).step undisturbed (Program.idle Call noTokens) resetTwice =
      some _ := rfl
  exact ⟨noTokens_initial, _, run_singleUse noTokens_initial (run_of_execIf h), rfl⟩

def openedTwice : List (Event Operation Id Change) :=
  [.spawn 0 (.createInvite "ana" "password_reset" 1 (hexToken 'a')), .act 0 "-", .act 0 "t1",
    .spawn 0 (.verifyAndConsume (hexToken 'a') "password_reset"),
    .spawn 1 (.verifyAndConsume (hexToken 'a') "password_reset"),
    .act 0 "-", .act 1 "-", .act 0 "-", .act 1 "-"]

theorem token_consumed_twice : Initial noTokens ∧ ∃ p : Pool Store Call,
    Run (program plain).step free (Program.idle Call noTokens) openedTwice p ∧
      p.store.log.count (.redeemed "t1") = 2 ∧ ¬ SingleUse p.store := by
  have h : exec (program plain).step (Program.idle Call noTokens) openedTwice = some _ := rfl
  refine ⟨noTokens_initial, _, run_of_exec h, rfl, fun hc ↦ ?_⟩
  exact absurd (hc.atMostOnce "t1") (by decide)

end Shellius.Invite
