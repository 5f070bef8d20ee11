import Shellius.Lib.Pool
import Shellius.Lib.Table
import Shellius.Schema

/-!
# Refresh-token families

`authService.refresh`, `logout`, `issueSession` and `revokeFamily` over the
table of refresh tokens, each database step on its own.  A sign-in starts a
family; every refresh rotates one of its tokens, and presenting a token that
was rotated away some time ago is taken for theft and revokes the family.

A token, the hash it is stored under and the key of its row are one number,
drawn from a counter, and so are the families.

`refresh` reads the row it rotates well before it writes.  A write is *overtaken*
if the row has been revoked in between; `family_safe` is about the runs in which
no write is.
-/

namespace Shellius.Refresh

open Lib

/-- The settings `refresh` depends on, in milliseconds. -/
structure Config where
  /-- `config.auth.refreshReuseGraceMs` -/
  graceMs : Int := 10 * 1000
  /-- `config.auth.sessionAbsoluteTtlMs` -/
  absoluteTtlMs : Int := 30 * 24 * 60 * 60 * 1000
  /-- `config.jwt.refreshExpiry` -/
  jwtTtlMs : Int := 7 * 24 * 60 * 60 * 1000
  /-- `REFRESH_TTL_MS` -/
  refreshTtlMs : Int := 7 * 24 * 60 * 60 * 1000

/-- A day, after which `cleanupOldRevoked` deletes a revoked token. -/
def cleanupAgeMs : Int := 24 * 60 * 60 * 1000

structure RefreshToken where
  id : Nat
  userId : Id
  familyId : Option Nat
  sessionStartedAt : Millis
  expiresAt : Millis
  revokedAt : Option Millis := none
  replacedById : Option Nat := none

/-- The tables, the clock, and the tokens signed so far with their JWT expiry. -/
structure Store where
  now : Millis
  users : List User
  tokens : List RefreshToken := []
  signed : List (Nat × Millis) := []
  next : Nat := 0

inductive Operation
  | refresh (token : Nat)
  | logout (token : Nat)
  | issueSession (userId : Id)
  | revokeFamily (familyId : Nat)

inductive Call
  | /-- `refresh` verifies the signature and the expiry of the JWT. -/
    verify (token : Nat)
  | find (token : Nat)
  | findUser (stored : RefreshToken) (now : Millis)
  | /-- It creates the new row and marks the old one, in a transaction. -/
    rotate (stored : RefreshToken) (now : Millis)
  | /-- `cleanupOldRevoked` -/
    cleanup (familyId : Nat) (cutoff : Millis)
  | markRevoked (token : Nat) (now : Millis)
  | /-- `revokeFamily` -/
    revokeFamily (familyId : Nat)
  | /-- The reuse of a token without a family deletes every row of the user. -/
    deleteUserTokens (userId : Id)
  | /-- `logout` finds the row of the token. -/
    logoutFind (token : Nat)
  | deleteToken (token : Nat)
  | /-- `issueSession` creates the first row of a family. -/
    issue (userId : Id)

def start : Operation → Call
  | .refresh token => .verify token
  | .logout token => .logoutFind token
  | .issueSession userId => .issue userId
  | .revokeFamily familyId => .revokeFamily familyId

section

variable (cfg : Config)

/-- The row is revoked from `now` on. -/
def revokeToken (now : Millis) (r : RefreshToken) : RefreshToken := { r with revokedAt := some now }

/-- The row is revoked in favour of the row `newId`. -/
def replaceToken (now : Millis) (newId : Nat) (r : RefreshToken) : RefreshToken :=
  { revokeToken now r with replacedById := some newId }

/-- The row `revokeFamily` leaves of a row. -/
def revokeInFamily (familyId : Nat) (now : Millis) (r : RefreshToken) : RefreshToken :=
  if r.familyId = some familyId ∧ r.revokedAt = none then revokeToken now r else r

/-- The family a rotation continues, or starts for a token without one. -/
def rotatedFamily (s : Store) (stored : RefreshToken) : Nat := stored.familyId.getD s.next

/-- The row a rotation creates. -/
def rotatedToken (s : Store) (stored : RefreshToken) : RefreshToken where
  id := s.next + 1
  userId := stored.userId
  familyId := some (rotatedFamily s stored)
  sessionStartedAt := stored.sessionStartedAt
  expiresAt := s.now + cfg.refreshTtlMs

/-- The row a sign-in creates. -/
def issuedToken (s : Store) (userId : Id) : RefreshToken where
  id := s.next + 1
  userId
  familyId := some s.next
  sessionStartedAt := s.now
  expiresAt := s.now + cfg.refreshTtlMs

/-- The rows `cleanupOldRevoked` deletes. -/
def isOldRevoked (familyId : Nat) (cutoff : Millis) (r : RefreshToken) : Bool :=
  r.familyId = some familyId ∧ r.revokedAt.any fun t ↦ t < cutoff

def effect (s : Store) : Call → Store
  | .rotate stored now =>
    -- the update of a row that is gone rolls the transaction back
    if (lookup RefreshToken.id stored.id s.tokens).isSome then
      { s with
        tokens := modify RefreshToken.id stored.id (replaceToken now (s.next + 1)) s.tokens ++
          [rotatedToken cfg s stored]
        signed := (s.next + 1, s.now + cfg.jwtTtlMs) :: s.signed
        next := s.next + 2 }
    else s
  | .cleanup familyId cutoff =>
    { s with tokens := s.tokens.filter fun r ↦ ¬ isOldRevoked familyId cutoff r }
  | .markRevoked token now =>
    { s with tokens := modify RefreshToken.id token (revokeToken now) s.tokens }
  | .revokeFamily familyId =>
    { s with tokens := s.tokens.map (revokeInFamily familyId s.now) }
  | .deleteUserTokens userId =>
    { s with tokens := s.tokens.filter fun r ↦ r.userId ≠ userId }
  | .deleteToken token => { s with tokens := s.tokens.filter fun r ↦ r.id ≠ token }
  | .issue userId =>
    { s with
      tokens := s.tokens ++ [issuedToken cfg s userId]
      signed := (s.next + 1, s.now + cfg.jwtTtlMs) :: s.signed
      next := s.next + 2 }
  | _ => s

def next (s : Store) : Call → Option Call
  | .verify token =>
    if s.signed.any fun t ↦ t.1 = token ∧ s.now < t.2 then some (.find token) else none
  | .find token =>
    (lookup RefreshToken.id token s.tokens).bind fun stored ↦
      match stored.revokedAt with
      | some revokedAt =>
        if s.now - revokedAt ≤ cfg.graceMs then none
        else
          match stored.familyId with
          | some familyId => some (.revokeFamily familyId)
          | none => some (.deleteUserTokens stored.userId)
      | none =>
        if stored.expiresAt < s.now then some (.markRevoked stored.id s.now)
        else if s.now - stored.sessionStartedAt > cfg.absoluteTtlMs then
          stored.familyId.map .revokeFamily
        else some (.findUser stored s.now)
  | .findUser stored now =>
    (lookup User.id stored.userId s.users).bind fun user ↦
      if user.status ≠ .active then none
      else if user.sessionsValidFrom.any fun t ↦ stored.sessionStartedAt < t then
        stored.familyId.map .revokeFamily
      else some (.rotate stored now)
  | .rotate stored _ =>
    if (lookup RefreshToken.id stored.id s.tokens).isSome then
      some (.cleanup (rotatedFamily s stored) (s.now - cleanupAgeMs))
    else none
  | .logoutFind token =>
    (lookup RefreshToken.id token s.tokens).map fun stored ↦
      match stored.familyId with
      | some familyId => .revokeFamily familyId
      | none => .deleteToken token
  | _ => none

inductive Change
  | tick (now : Millis)
  | users (users : List User)

def program : Program Store Operation Call Unit Change where
  start
  act _ s k _ := some (effect cfg s k, next cfg s k)
  env s
    | .tick now => if s.now ≤ now then some { s with now } else none
    | .users users =>
      some { s with users, tokens := s.tokens.filter fun r ↦ r.userId ∈ users.map User.id }

/-- The step does not write over a row that was revoked since its call read it. -/
def undisturbed (p : Pool Store Call) : Event Operation Unit Change → Bool
  | .act i _ =>
    match p.calls i with
    | some (.rotate stored _) =>
      p.store.tokens.all fun r ↦ r.id = stored.id → r.revokedAt = none
    | some (.markRevoked token _) =>
      p.store.tokens.all fun r ↦ r.id = token → r.revokedAt = none
    | _ => true
  | _ => true

/-- Runs in which no write is overtaken. -/
def Undisturbed (p : Pool Store Call) (e : Event Operation Unit Change) (_ : Pool Store Call) :
    Prop := undisturbed p e = true

end

/-! ## The invariant -/

variable {cfg : Config} {s s' : Store} {k : Call} {r r' : RefreshToken} {f i : Nat}

structure Inv (s : Store) : Prop where
  /-- `id` is a primary key. -/
  key : (s.tokens.map RefreshToken.id).Nodup
  drawn : ∀ r ∈ s.tokens, r.id < s.next ∧ ∀ f, r.familyId = some f → f < s.next
  single : ∀ r ∈ s.tokens, ∀ r' ∈ s.tokens, ∀ f, r.familyId = some f → r'.familyId = some f →
    r.revokedAt = none → r'.revokedAt = none → r.id = r'.id

/-- What holds of a call in flight: the row it read keeps its family, and what
it cleans up is a day old. -/
def Assert (s : Store) (_ : Nat) : Call → Prop
  | .findUser stored _ | .rotate stored _ =>
    stored.id < s.next ∧ (∀ f, stored.familyId = some f → f < s.next) ∧
      ∀ r ∈ s.tokens, r.id = stored.id → r.familyId = stored.familyId
  | .cleanup _ cutoff => cutoff ≤ s.now - cleanupAgeMs
  | .deleteToken token =>
    token < s.next ∧ ∀ r ∈ s.tokens, r.id = token → r.familyId = none
  | _ => True

/-- The row `r'` is a later form of `r`: it is in the same family, and once
revoked it stays revoked. -/
structure Descends (r r' : RefreshToken) : Prop where
  id : r'.id = r.id
  userId : r'.userId = r.userId
  familyId : r'.familyId = r.familyId
  revokedAt : r'.revokedAt = none → r.revokedAt = none

theorem Descends.refl (r : RefreshToken) : Descends r r := ⟨rfl, rfl, rfl, fun h ↦ h⟩

theorem mem_effect (h : r' ∈ (effect cfg s k).tokens) :
    (∃ r ∈ s.tokens, Descends r r') ∨
      (∃ stored now, k = .rotate stored now ∧ (∃ r ∈ s.tokens, r.id = stored.id) ∧
        r' = rotatedToken cfg s stored) ∨
      ∃ userId, k = .issue userId ∧ r' = issuedToken cfg s userId := by
  cases k with
  | rotate stored now =>
    simp only [effect] at h
    split at h
    · rename_i hrow
      obtain ⟨r₀, hr₀⟩ := Option.isSome_iff_exists.mp hrow
      rcases List.mem_append.mp h with h | h
      · rcases mem_modify.mp h with ⟨h, -⟩ | ⟨r, hr, -, rfl⟩
        · exact .inl ⟨r', h, .refl r'⟩
        · exact .inl ⟨r, hr, rfl, rfl, rfl, fun h ↦ by simp [replaceToken, revokeToken] at h⟩
      · exact .inr (.inl ⟨stored, now, rfl, ⟨r₀, lookup_spec hr₀⟩, List.mem_singleton.mp h⟩)
    · exact .inl ⟨r', h, .refl r'⟩
  | issue userId =>
    rcases List.mem_append.mp h with h | h
    · exact .inl ⟨r', h, .refl r'⟩
    · exact .inr (.inr ⟨userId, rfl, List.mem_singleton.mp h⟩)
  | markRevoked token now =>
    rcases mem_modify.mp h with ⟨h, -⟩ | ⟨r, hr, -, rfl⟩
    · exact .inl ⟨r', h, .refl r'⟩
    · exact .inl ⟨r, hr, rfl, rfl, rfl, fun h ↦ by simp [revokeToken] at h⟩
  | revokeFamily f =>
    obtain ⟨r, hr, rfl⟩ := List.mem_map.mp h
    refine .inl ⟨r, hr, ?_⟩
    unfold revokeInFamily
    split
    · exact ⟨rfl, rfl, rfl, fun h ↦ by simp [revokeToken] at h⟩
    · exact .refl r
  | cleanup | deleteUserTokens | deleteToken =>
    exact .inl ⟨r', List.mem_of_mem_filter h, .refl r'⟩
  | _ => exact .inl ⟨r', h, .refl r'⟩

theorem next_le_effect : s.next ≤ (effect cfg s k).next := by
  cases k with
  | rotate => simp only [effect]; split <;> simp
  | _ => simp [effect]

@[simp] theorem effect_now : (effect cfg s k).now = s.now := by
  cases k with
  | rotate => simp only [effect]; split <;> rfl
  | _ => rfl

theorem rotate_revokes {stored : RefreshToken} {now : Millis} (hid : stored.id < s.next)
    (hrow : ∃ r ∈ s.tokens, r.id = stored.id)
    (h : r' ∈ (effect cfg s (.rotate stored now)).tokens) (he : r'.id = stored.id) :
    r'.revokedAt ≠ none := by
  obtain ⟨r₀, hr₀, he₀⟩ := hrow
  have hsome : (lookup RefreshToken.id stored.id s.tokens).isSome := by
    rw [Option.isSome_iff_ne_none]
    exact fun hn ↦ lookup_eq_none.mp hn r₀ hr₀ he₀
  simp only [effect, hsome, if_true] at h
  rcases List.mem_append.mp h with h | h
  · rcases mem_modify.mp h with ⟨-, hne⟩ | ⟨r, -, -, rfl⟩
    · exact absurd he hne
    · simp [replaceToken, revokeToken]
  · rw [List.mem_singleton.mp h] at he
    simp only [rotatedToken] at he
    omega

theorem nodup_append_new (h : Inv s) {l : List RefreshToken}
    (hl : l.map RefreshToken.id = s.tokens.map RefreshToken.id) (hr : r.id = s.next + 1) :
    ((l ++ [r]).map RefreshToken.id).Nodup := by
  rw [List.map_append, hl, List.nodup_append]
  refine ⟨h.key, by simp, fun x hx y hy hxy ↦ ?_⟩
  obtain ⟨q, hq, rfl⟩ := List.mem_map.mp hx
  have := (h.drawn q hq).1
  simp only [List.map_cons, List.map_nil, List.mem_singleton, hr] at hy
  omega

theorem key_effect (h : Inv s) : ((effect cfg s k).tokens.map RefreshToken.id).Nodup := by
  cases k with
  | rotate stored now =>
    simp only [effect]
    split
    · exact nodup_append_new h (map_modify fun _ _ _ ↦ rfl) rfl
    · exact h.key
  | issue userId => exact nodup_append_new h rfl rfl
  | markRevoked token now =>
    simp only [effect]
    rw [map_modify]
    · exact h.key
    · exact fun _ _ _ ↦ rfl
  | revokeFamily f =>
    simp only [effect, List.map_map]
    rw [List.map_congr_left (g := RefreshToken.id)]
    · exact h.key
    · intro r _
      simp only [Function.comp_apply, revokeInFamily]
      split <;> rfl
  | cleanup | deleteUserTokens | deleteToken => exact (List.filter_sublist.map _).nodup h.key
  | _ => exact h.key

theorem rotatedFamily_ne {stored : RefreshToken} (h : Inv s) (hr : r ∈ s.tokens)
    (hf : r.familyId = some (rotatedFamily s stored)) :
    stored.familyId = some (rotatedFamily s stored) := by
  cases hs : stored.familyId with
  | some g => simp [rotatedFamily, hs]
  | none =>
    have := (h.drawn r hr).2 _ hf
    simp [rotatedFamily, hs] at this

/-- One step of a call that is not overtaken keeps the invariant. -/
theorem Inv.effect (h : Inv s) (ha : Assert s i k)
    (hok : ∀ stored now, k = .rotate stored now →
      ∀ r ∈ s.tokens, r.id = stored.id → r.revokedAt = none) :
    Inv (effect cfg s k) where
  key := key_effect h
  drawn r' hr' := by
    have hle : s.next ≤ (Refresh.effect cfg s k).next := next_le_effect
    rcases mem_effect hr' with ⟨r, hr, hd⟩ | ⟨stored, now, rfl, ⟨r₀, hr₀, he₀⟩, rfl⟩ |
      ⟨userId, rfl, rfl⟩
    · obtain ⟨hid, hfam⟩ := h.drawn r hr
      exact ⟨by rw [hd.id]; omega, fun f hf ↦ Nat.lt_of_lt_of_le (hfam f (hd.familyId ▸ hf)) hle⟩
    · have hsome : (lookup RefreshToken.id stored.id s.tokens).isSome := by
        rw [Option.isSome_iff_ne_none]
        exact fun hn ↦ lookup_eq_none.mp hn r₀ hr₀ he₀
      simp only [Refresh.effect, hsome, if_true]
      refine ⟨by simp [rotatedToken], fun f hf ↦ ?_⟩
      obtain rfl := Option.some.inj hf
      cases hs : stored.familyId with
      | some g => simpa [rotatedFamily, hs] using Nat.lt_of_lt_of_le (ha.2.1 g hs) (by omega)
      | none => simp [rotatedFamily, hs]
    · simp [Refresh.effect, issuedToken]
  single r' hr' q' hq' f hf hf' hn hn' := by
    -- an unrevoked row of `f` besides a new one is the row the rotation revoked
    have key : ∀ {r' : RefreshToken}, r' ∈ (Refresh.effect cfg s k).tokens →
        r'.familyId = some f → r'.revokedAt = none → (∃ r ∈ s.tokens, Descends r r') →
        (∀ stored now, k = .rotate stored now → (∃ r ∈ s.tokens, r.id = stored.id) →
          f ≠ rotatedFamily s stored) ∧ f ≠ s.next := by
      rintro r' hr' hf hn ⟨r, hr, hd⟩
      have hrf : r.familyId = some f := hd.familyId ▸ hf
      refine ⟨fun stored now hk hrow hfeq ↦ ?_, fun hfeq ↦ ?_⟩
      · subst hk hfeq
        have hs := rotatedFamily_ne h hr hrf
        obtain ⟨r₀, hr₀, he₀⟩ := hrow
        have hid := h.single r hr r₀ hr₀ _ hrf ((ha.2.2 r₀ hr₀ he₀).trans hs) (hd.revokedAt hn)
          (hok stored now rfl r₀ hr₀ he₀)
        exact rotate_revokes ha.1 ⟨r₀, hr₀, he₀⟩ hr' (hd.id.trans (hid.trans he₀)) hn
      · have := (h.drawn r hr).2 f hrf
        omega
    rcases mem_effect hr' with hd | ⟨stored, now, hk, hrow, rfl⟩ | ⟨userId, hk, rfl⟩ <;>
      rcases mem_effect hq' with hd' | ⟨stored', now', hk', hrow', rfl⟩ | ⟨userId', hk', rfl⟩
    · obtain ⟨r, hr, hd⟩ := hd
      obtain ⟨q, hq, hd'⟩ := hd'
      rw [hd.id, hd'.id]
      exact h.single r hr q hq f (hd.familyId ▸ hf) (hd'.familyId ▸ hf') (hd.revokedAt hn)
        (hd'.revokedAt hn')
    · exact absurd (Option.some.inj hf').symm ((key hr' hf hn hd).1 stored' now' hk' hrow')
    · exact absurd (Option.some.inj hf').symm (key hr' hf hn hd).2
    · exact absurd (Option.some.inj hf).symm ((key hq' hf' hn' hd').1 stored now hk hrow)
    · rfl
    · rfl
    · exact absurd (Option.some.inj hf).symm (key hq' hf' hn' hd').2
    · rfl
    · rfl

/-! ### What the calls assert -/

theorem familyId_effect {token : Nat} {g : Option Nat} (hid : token < s.next)
    (h : ∀ r ∈ s.tokens, r.id = token → r.familyId = g) :
    token < (effect cfg s k).next ∧
      ∀ r ∈ (effect cfg s k).tokens, r.id = token → r.familyId = g := by
  refine ⟨Nat.lt_of_lt_of_le hid next_le_effect, fun r' hr' he ↦ ?_⟩
  rcases mem_effect hr' with ⟨r, hr, hd⟩ | ⟨_, _, _, _, rfl⟩ | ⟨_, _, rfl⟩
  · exact hd.familyId.trans (h r hr (hd.id.symm.trans he))
  · simp only [rotatedToken] at he
    omega
  · simp only [issuedToken] at he
    omega

theorem Assert.effect {l : Call} {j : Nat} (hl : Assert s j l) :
    Assert (Refresh.effect cfg s k) j l := by
  cases l with
  | findUser stored now | rotate stored now =>
    obtain ⟨hid, hrow⟩ := familyId_effect hl.1 hl.2.2
    exact ⟨hid, fun f hf ↦ Nat.lt_of_lt_of_le (hl.2.1 f hf) next_le_effect, hrow⟩
  | deleteToken token => exact familyId_effect hl.1 hl.2
  | cleanup f cutoff => simpa [Assert] using hl
  | _ => trivial

theorem assert_next (h : Inv s) (ha : Assert s i k) {l : Call} (hl : next cfg s k = some l) :
    Assert s i l := by
  have hread : ∀ stored ∈ s.tokens, stored.id < s.next ∧
      (∀ f, stored.familyId = some f → f < s.next) ∧
        ∀ r ∈ s.tokens, r.id = stored.id → r.familyId = stored.familyId :=
    fun stored hr ↦ ⟨(h.drawn stored hr).1, (h.drawn stored hr).2, fun r hr' hid ↦ by
      rw [List.inj_on_of_nodup_map h.key hr' hr hid]⟩
  cases k with
  | find token =>
    obtain ⟨stored, hrow, hl⟩ := Option.bind_eq_some_iff.mp hl
    obtain ⟨hr, rfl⟩ := lookup_spec hrow
    cases l with
    | findUser stored' now =>
      obtain rfl : stored = stored' := by cases hf : stored.familyId <;> grind
      exact hread stored hr
    | rotate | cleanup | deleteToken => cases hf : stored.familyId <;> grind
    | _ => trivial
  | findUser stored now =>
    obtain ⟨user, -, hl⟩ := Option.bind_eq_some_iff.mp hl
    cases l with
    | rotate stored' now' =>
      obtain rfl : stored = stored' := by cases hf : stored.familyId <;> grind
      exact ha
    | findUser | cleanup | deleteToken => cases hf : stored.familyId <;> grind
    | _ => trivial
  | rotate stored now =>
    simp only [next] at hl
    split at hl
    · obtain rfl := Option.some.inj hl
      exact Int.le_refl _
    · cases hl
  | logoutFind token =>
    obtain ⟨stored, hrow, rfl⟩ := Option.map_eq_some_iff.mp hl
    obtain ⟨hr, rfl⟩ := lookup_spec hrow
    cases hf : stored.familyId with
    | some f => trivial
    | none =>
      obtain ⟨hid, -, hfam⟩ := hread stored hr
      exact ⟨hid, hf ▸ hfam⟩
  | _ =>
    cases l with
    | findUser | rotate | cleanup | deleteToken => grind [next]
    | _ => trivial

theorem program_keeps (cfg : Config) : (program cfg).Keeps Undisturbed Inv Assert where
  spawn s i a _ := by cases a <;> trivial
  act p i k e s' k' hp hk hact hok := by
    obtain ⟨rfl, rfl⟩ := Prod.mk.inj (Option.some.inj hact)
    have hfresh : ∀ stored now, k = .rotate stored now →
        ∀ r ∈ p.store.tokens, r.id = stored.id → r.revokedAt = none := by
      rintro stored now rfl r hr hid
      simp only [Undisturbed, undisturbed, hk, List.all_eq_true, decide_eq_true_eq] at hok
      exact hok r hr hid
    exact ⟨hp.1.effect (hp.2 i k hk) hfresh,
      fun l hl ↦ (assert_next hp.1 (hp.2 i k hk) hl).effect,
      fun j l _ hj ↦ (hp.2 j l hj).effect⟩
  abort p i k hp _ := ⟨hp.1, fun j l _ hj ↦ hp.2 j l hj⟩
  env s d s' h hd := by
    cases d with
    | tick now =>
      simp only [program] at hd
      split at hd
      · obtain rfl := Option.some.inj hd
        refine ⟨⟨h.1, h.2, h.3⟩, fun j l hl ↦ ?_⟩
        cases l with
        | cleanup f cutoff => exact Int.le_trans hl (Int.sub_le_sub_right ‹_› _)
        | _ => exact hl
      · cases hd
    | users users =>
      obtain rfl := Option.some.inj hd
      refine ⟨⟨(List.filter_sublist.map _).nodup h.key, fun r hr ↦
        h.drawn r (List.mem_of_mem_filter hr), fun r hr q hq ↦
        h.single r (List.mem_of_mem_filter hr) q (List.mem_of_mem_filter hq)⟩, fun j l hl ↦ ?_⟩
      cases l with
      | findUser | rotate =>
        exact ⟨hl.1, hl.2.1, fun r hr ↦ hl.2.2 r (List.mem_of_mem_filter hr)⟩
      | deleteToken => exact ⟨hl.1, fun r hr ↦ hl.2 r (List.mem_of_mem_filter hr)⟩
      | cleanup => exact hl
      | _ => trivial

/-! ## What a family may rely on -/

/-- Every token of a family that was started is revoked. -/
def Revoked (f : Nat) (s : Store) : Prop :=
  f < s.next ∧ ∀ r ∈ s.tokens, r.familyId = some f → r.revokedAt ≠ none

/-- The step is the success of a refresh in a family: it writes the rotation of
one of its tokens. -/
def Rotates (p : Pool Store Call) (e : Event Operation Unit Change) (f : Nat) : Prop :=
  ∃ i stored now, e = .act i () ∧ p.calls i = some (.rotate stored now) ∧
    ∃ r ∈ p.store.tokens, r.id = stored.id ∧ r.familyId = some f

variable {p q : Pool Store Call} {e : Event Operation Unit Change}
  {es : List (Event Operation Unit Change)}

theorem Revoked.not_rotates (h : Revoked f p.store) (hok : Undisturbed p e q) :
    ¬ Rotates p e f := by
  rintro ⟨i, stored, now, rfl, hk, r, hr, hid, hf⟩
  simp only [Undisturbed, undisturbed, hk, List.all_eq_true, decide_eq_true_eq] at hok
  exact h.2 r hr hf (hok r hr hid)

theorem Revoked.step (h : Revoked f p.store) (hp : Program.Holds Inv Assert p)
    (hs : (program cfg).step p e = some q) (hok : Undisturbed p e q) : Revoked f q.store := by
  cases e with
  | spawn i a =>
    obtain ⟨-, rfl⟩ := Program.step_spawn hs
    exact h
  | act i e =>
    obtain ⟨k, ⟨s', k'⟩, hk, hact, rfl⟩ := Program.step_act hs
    obtain ⟨rfl, rfl⟩ := Prod.mk.inj (Option.some.inj hact)
    refine ⟨Nat.lt_of_lt_of_le h.1 next_le_effect, fun r' hr' hf hn ↦ ?_⟩
    rcases mem_effect hr' with ⟨r, hr, hd⟩ | ⟨stored, now, rfl, ⟨r₀, hr₀, he₀⟩, rfl⟩ |
      ⟨userId, rfl, rfl⟩
    · exact h.2 r hr (hd.familyId ▸ hf) (hd.revokedAt hn)
    · obtain rfl := Option.some.inj hf
      have ha := hp.2 i _ hk
      cases hs : stored.familyId with
      | some g =>
        refine h.not_rotates hok ⟨i, stored, now, rfl, hk, r₀, hr₀, he₀, ?_⟩
        rw [ha.2.2 r₀ hr₀ he₀, hs]
        simp [rotatedFamily, hs]
      | none =>
        have := h.1
        simp [rotatedFamily, hs] at this
    · have := h.1
      obtain rfl := Option.some.inj hf
      omega
  | abort i =>
    obtain ⟨k, -, rfl⟩ := Program.step_abort hs
    exact h
  | env d =>
    obtain ⟨s', hd, rfl⟩ := Program.step_env hs
    cases d with
    | tick now =>
      simp only [program] at hd
      split at hd
      · obtain rfl := Option.some.inj hd; exact h
      · cases hd
    | users users =>
      obtain rfl := Option.some.inj hd
      exact ⟨h.1, fun r hr ↦ h.2 r (List.mem_of_mem_filter hr)⟩

theorem Revoked.run (h : Revoked f p.store) (hp : Program.Holds Inv Assert p)
    (hr : Run (program cfg).step Undisturbed p es q) : Revoked f q.store :=
  (hr.invariant (I := fun p ↦ Program.Holds Inv Assert p ∧ Revoked f p.store) ⟨hp, h⟩
    fun _ _ _ ht hs hok ↦ ⟨(program_keeps cfg).step ht.1 hs hok, ht.2.step ht.1 hs hok⟩).2

/-- What a family of tokens may rely on, at a point of a run. -/
structure FamilySafety (cfg : Config) (p : Pool Store Call) : Prop where
  single : ∀ f, ∀ r ∈ p.store.tokens, ∀ r' ∈ p.store.tokens, r.familyId = some f →
    r'.familyId = some f → r.revokedAt = none → r'.revokedAt = none → r = r'
  /-- `revokeFamily` revokes it. -/
  revoked : ∀ i f q, f < p.store.next → p.calls i = some (.revokeFamily f) →
    (program cfg).step p (.act i ()) = some q → Revoked f q.store
  stays : ∀ f es q, Revoked f p.store → Run (program cfg).step Undisturbed p es q →
    Revoked f q.store
  barren : ∀ f es q e q', Revoked f p.store → Run (program cfg).step Undisturbed p es q →
    (program cfg).step q e = some q' → Undisturbed q e q' → ¬ Rotates q e f
  /-- A token whose JWT has not expired is looked up when it is presented. -/
  presented : ∀ i token t, (token, t) ∈ p.store.signed → p.store.now < t →
    p.calls i = some (.verify token) →
    (program cfg).step p (.act i ()) =
      some ⟨p.store, Function.update p.calls i (some (.find token))⟩
  /-- If its row is there, and was revoked longer ago than the grace period, the
  call goes on to revoke the family. -/
  reuse : ∀ i f, ∀ r ∈ p.store.tokens, ∀ t, r.familyId = some f → r.revokedAt = some t →
    p.store.now - t > cfg.graceMs → p.calls i = some (.find r.id) →
    (program cfg).step p (.act i ()) =
      some ⟨p.store, Function.update p.calls i (some (.revokeFamily f))⟩
  /-- The row is there for a day after it was revoked, or until all the rows of
  its user go. -/
  kept : ∀ e q, (program cfg).step p e = some q → ∀ r ∈ p.store.tokens, ∀ f,
    r.familyId = some f → (∃ r' ∈ q.store.tokens, r'.id = r.id) ∨
      (∃ t, r.revokedAt = some t ∧ t < p.store.now - cleanupAgeMs) ∨
      ∀ r' ∈ q.store.tokens, r'.userId ≠ r.userId

theorem kept_effect (ha : Assert s i k) (hr : r ∈ s.tokens)
    (hf : r.familyId = some f) :
    (∃ r' ∈ (effect cfg s k).tokens, r'.id = r.id) ∨
      (∃ t, r.revokedAt = some t ∧ t < s.now - cleanupAgeMs) ∨
      ∀ r' ∈ (effect cfg s k).tokens, r'.userId ≠ r.userId := by
  have same : ∀ l : List RefreshToken, l.map RefreshToken.id = s.tokens.map RefreshToken.id →
      ∃ r' ∈ l, r'.id = r.id := fun l hl ↦
    List.mem_map.mp (hl ▸ List.mem_map_of_mem hr)
  cases k with
  | rotate stored now =>
    simp only [effect]
    split
    · obtain ⟨r', hr', he⟩ := same (modify RefreshToken.id stored.id
        (replaceToken now (s.next + 1)) s.tokens) (map_modify fun _ _ _ ↦ rfl)
      exact .inl ⟨r', List.mem_append_left _ hr', he⟩
    · exact .inl ⟨r, hr, rfl⟩
  | issue userId => exact .inl ⟨r, List.mem_append_left _ hr, rfl⟩
  | markRevoked token now => exact .inl (same _ (map_modify fun _ _ _ ↦ rfl))
  | revokeFamily g =>
    refine .inl ⟨revokeInFamily g s.now r, List.mem_map_of_mem hr, ?_⟩
    unfold revokeInFamily
    split <;> rfl
  | cleanup g cutoff =>
    by_cases hold : isOldRevoked g cutoff r = true
    · simp only [isOldRevoked, Option.any_eq_true, decide_eq_true_eq] at hold
      obtain ⟨-, t, ht, hlt⟩ := hold
      exact .inr (.inl ⟨t, ht, Int.lt_of_lt_of_le hlt ha⟩)
    · exact .inl ⟨r, List.mem_filter.mpr ⟨hr, by simpa using hold⟩, rfl⟩
  | deleteUserTokens userId =>
    by_cases hu : r.userId = userId
    · refine .inr (.inr fun r' hr' ↦ ?_)
      simpa [hu] using (List.mem_filter.mp hr').2
    · exact .inl ⟨r, List.mem_filter.mpr ⟨hr, by simpa using hu⟩, rfl⟩
  | deleteToken token =>
    have hne : r.id ≠ token := fun he ↦ by simpa [hf] using ha.2 r hr he
    exact .inl ⟨r, List.mem_filter.mpr ⟨hr, by simpa using hne⟩, rfl⟩
  | _ => exact .inl ⟨r, hr, rfl⟩

/-- The rows of a family go only as `FamilySafety.kept` says. -/
theorem kept (hp : Program.Holds Inv Assert p) (hs : (program cfg).step p e = some q)
    (hr : r ∈ p.store.tokens) (hf : r.familyId = some f) :
    (∃ r' ∈ q.store.tokens, r'.id = r.id) ∨
      (∃ t, r.revokedAt = some t ∧ t < p.store.now - cleanupAgeMs) ∨
      ∀ r' ∈ q.store.tokens, r'.userId ≠ r.userId := by
  cases e with
  | spawn i a =>
    obtain ⟨-, rfl⟩ := Program.step_spawn hs
    exact .inl ⟨r, hr, rfl⟩
  | act i e =>
    obtain ⟨k, ⟨s', k'⟩, hk, hact, rfl⟩ := Program.step_act hs
    obtain ⟨rfl, rfl⟩ := Prod.mk.inj (Option.some.inj hact)
    exact kept_effect (hp.2 i k hk) hr hf
  | abort i =>
    obtain ⟨k, -, rfl⟩ := Program.step_abort hs
    exact .inl ⟨r, hr, rfl⟩
  | env d =>
    obtain ⟨s', hd, rfl⟩ := Program.step_env hs
    cases d with
    | tick now =>
      simp only [program] at hd
      split at hd
      · obtain rfl := Option.some.inj hd; exact .inl ⟨r, hr, rfl⟩
      · cases hd
    | users users =>
      obtain rfl := Option.some.inj hd
      by_cases hu : r.userId ∈ users.map User.id
      · exact .inl ⟨r, List.mem_filter.mpr ⟨hr, by simpa using hu⟩, rfl⟩
      · refine .inr (.inr fun r' hr' he ↦ hu ?_)
        simpa [← he] using (List.mem_filter.mp hr').2

theorem familySafety (hp : Program.Holds Inv Assert p) : FamilySafety cfg p where
  single f r hr r' hr' hf hf' hn hn' :=
    List.inj_on_of_nodup_map hp.1.key hr hr' (hp.1.single r hr r' hr' f hf hf' hn hn')
  revoked i f q hf hk hs := by
    obtain ⟨k, ⟨s', k'⟩, hk', hact, rfl⟩ := Program.step_act hs
    obtain rfl := Option.some.inj (hk.symm.trans hk')
    obtain ⟨rfl, rfl⟩ := Prod.mk.inj (Option.some.inj hact)
    refine ⟨hf, fun r' hr' hrf ↦ ?_⟩
    obtain ⟨r, hr, rfl⟩ := List.mem_map.mp hr'
    unfold revokeInFamily at hrf ⊢
    split
    · exact Option.some_ne_none _
    · rename_i hno
      rw [if_neg hno] at hrf
      exact fun hn ↦ hno ⟨hrf, hn⟩
  stays f es q h hr := h.run hp hr
  barren f es q e q' h hr _ hok := (h.run hp hr).not_rotates hok
  presented i token t hmem ht hk := by
    have hany : (p.store.signed.any fun t ↦ t.1 = token ∧ p.store.now < t.2) = true :=
      List.any_eq_true.mpr ⟨_, hmem, by simpa using ht⟩
    simp only [Program.step, hk, program, effect, next, if_pos hany, Option.map_some]
  reuse i f r hr t hf ht hgrace hk := by
    have hrow : lookup RefreshToken.id r.id p.store.tokens = some r :=
      lookup_of_mem hp.1.key hr
    have hlate : ¬ p.store.now - t ≤ cfg.graceMs := Int.not_le.mpr hgrace
    have hnext : next cfg p.store (.find r.id) = some (.revokeFamily f) := by
      simp only [next, hrow, Option.bind_some, ht, if_neg hlate, hf]
    simp only [Program.step, hk, program, effect, hnext, Option.map_some]
  kept e q hs r hr f hf := Refresh.kept hp hs hr hf

structure Initial (s : Store) : Prop where
  key : (s.tokens.map RefreshToken.id).Nodup
  drawn : ∀ r ∈ s.tokens, r.id < s.next
  familyless : ∀ r ∈ s.tokens, r.familyId = none

theorem Initial.inv (h : Initial s) : Inv s where
  key := h.key
  drawn r hr := ⟨h.drawn r hr, fun f hf ↦ by simp [h.familyless r hr] at hf⟩
  single r hr _ _ f hf := by simp [h.familyless r hr] at hf

/-- **Families are safe in every run in which no write is overtaken**: sign-ins,
refreshes, sign-outs and reuse detection interleaved step by step, while time
passes and users change. -/
theorem family_safe (h₀ : Initial s)
    (hr : Run (program cfg).step Undisturbed (Program.idle Call s) es p) : FamilySafety cfg p :=
  familySafety ((program_keeps cfg).run (Program.holds_idle h₀.inv) hr)

def signedOut : Store := { now := 0, users := [{ id := "ana", orgId := "org" }] }

def signInAndRefresh : List (Event Operation Unit Change) :=
  [.spawn 0 (.issueSession "ana"), .act 0 (), .env (.tick 60000), .spawn 0 (.refresh 1), .act 0 (),
    .act 0 (), .act 0 (), .act 0 (), .act 0 ()]

theorem family_safe_signIn : Initial signedOut ∧ ∃ p : Pool Store Call,
    FamilySafety {} p ∧ p.store.tokens.map RefreshToken.replacedById = [some 3, none] := by
  have h₀ : Initial signedOut :=
    ⟨by simp [signedOut], by simp [signedOut], by simp [signedOut]⟩
  have h : execIf (program {}).step undisturbed (Program.idle Call signedOut) signInAndRefresh =
      some _ := rfl
  exact ⟨h₀, _, family_safe h₀ (run_of_execIf h), rfl⟩

def refreshAndReuse : List (Event Operation Unit Change) :=
  [.env (.tick (2 * cleanupAgeMs)), .spawn 0 (.refresh 3), .act 0 (), .act 0 (), .act 0 (),
    .act 0 (), .act 0 (), .spawn 1 (.refresh 1), .act 1 (), .act 1 ()]

def refreshTwice : List (Event Operation Unit Change) :=
  [.spawn 0 (.issueSession "ana"), .act 0 (), .spawn 0 (.refresh 1), .act 0 (), .act 0 (), .act 0 (),
    .spawn 1 (.refresh 1), .act 1 (), .act 1 (), .act 1 (), .act 0 (), .act 1 ()]

/-- The rotated token's JWT is still good, but its row was cleaned up: nothing
is revoked.  And two overlapping refreshes leave two tokens that work. -/
theorem reuse_missed_after_cleanup :
    (∃ p : Pool Store Call,
      Run (program {}).step free (Program.idle Call signedOut)
        (signInAndRefresh ++ refreshAndReuse) p ∧
      p.calls 1 = none ∧ p.store.signed.any (fun t ↦ t.1 = 1 ∧ p.store.now < t.2) = true ∧
      ∃ r ∈ p.store.tokens, r.familyId = some 0 ∧ r.revokedAt = none ∧ p.store.now < r.expiresAt) ∧
    ∃ p : Pool Store Call,
      Run (program {}).step free (Program.idle Call signedOut) refreshTwice p ∧
      ∃ r ∈ p.store.tokens, ∃ r' ∈ p.store.tokens, r.id ≠ r'.id ∧
        r.familyId = some 0 ∧ r.revokedAt = none ∧ p.store.now < r.expiresAt ∧
        r'.familyId = some 0 ∧ r'.revokedAt = none ∧ p.store.now < r'.expiresAt := by
  have h : exec (program {}).step (Program.idle Call signedOut)
      (signInAndRefresh ++ refreshAndReuse) = some _ := rfl
  have h' : exec (program {}).step (Program.idle Call signedOut) refreshTwice = some _ := rfl
  exact ⟨⟨_, run_of_exec h, by decide, by decide, by decide⟩, _, run_of_exec h', by decide⟩

end Shellius.Refresh
