import Shellius.Auth.Refresh

/-!
# The answer of the refresh endpoint

`authService.refresh` as one call that nothing comes between, with what it answers.  Left alone, a
call of `Refresh.program` leaves the tables that this function gives.
-/

namespace Shellius.Refresh

open Lib

inductive Answer
  | rotated (token : Nat)
  | conflict
  | /-- 401: the token was revoked some time ago, and is taken for stolen. -/
    stolen
  | unauthorized (message : String)
deriving DecidableEq

section

variable (cfg : Config) (s : Store)

/-- The row after its reuse: the family is revoked, or every session of the user. -/
def revokeReused (stored : RefreshToken) : Store :=
  match stored.familyId with
  | some familyId => effect cfg s (.revokeFamily familyId)
  | none => effect cfg s (.deleteUserTokens stored.userId)

def revokeEnded (stored : RefreshToken) : Store :=
  match stored.familyId with
  | some familyId => effect cfg s (.revokeFamily familyId)
  | none => s

def rotate (stored : RefreshToken) : Store :=
  effect cfg (effect cfg s (.rotate stored s.now))
    (.cleanup (rotatedFamily s stored) (s.now - cleanupAgeMs))

/-- A row that is not revoked. -/
def refreshLive (stored : RefreshToken) : Store × Answer :=
  if stored.expiresAt < s.now then
    (effect cfg s (.markRevoked stored.id s.now), .unauthorized "Refresh token expired")
  else if s.now - stored.sessionStartedAt > cfg.absoluteTtlMs then
    (revokeEnded cfg s stored, .unauthorized "Session expired — please sign in again")
  else
    match lookup User.id stored.userId s.users with
    | none => (s, .unauthorized "Account is not active")
    | some user =>
      if user.status ≠ .active then (s, .unauthorized "Account is not active")
      else if user.sessionsValidFrom.any fun t ↦ stored.sessionStartedAt < t then
        (revokeEnded cfg s stored,
          .unauthorized "Session has been revoked — please sign in again")
      else (rotate cfg s stored, .rotated (s.next + 1))

def refresh (token : Nat) : Store × Answer :=
  if s.signed.any fun t ↦ t.1 = token ∧ s.now < t.2 then
    match lookup RefreshToken.id token s.tokens with
    | none => (s, .unauthorized "Invalid refresh token")
    | some stored =>
      match stored.revokedAt with
      | none => refreshLive cfg s stored
      | some revokedAt =>
        if s.now - revokedAt ≤ cfg.graceMs then (s, .conflict)
        else (revokeReused cfg s stored, .stolen)
  else (s, .unauthorized "Invalid or expired refresh token")

end

variable {cfg : Config} {s : Store} {stored : RefreshToken} {token i : Nat}

/-! ## The call, step by step -/

theorem ends_of_next {k k' : Call} {t : Store} (h : next cfg s k = some k')
    (hend : Program.Ends (program cfg) i (effect cfg s k) k' t) :
    Program.Ends (program cfg) i s k t :=
  .step (e := ()) (congrArg (fun o ↦ some (effect cfg s k, o)) h) hend

theorem ends_of_last {k : Call} (h : next cfg s k = none) :
    Program.Ends (program cfg) i s k (effect cfg s k) :=
  Program.ends_ret (e := ()) (congrArg (fun o ↦ some (effect cfg s k, o)) h)

theorem revokeEnded_ends {k : Call} (heffect : effect cfg s k = s)
    (h : next cfg s k = stored.familyId.map .revokeFamily) :
    Program.Ends (program cfg) i s k (revokeEnded cfg s stored) := by
  unfold revokeEnded
  cases hfam : stored.familyId with
  | none =>
    have hlast := ends_of_last (i := i) (h.trans (by rw [hfam]; rfl))
    rw [heffect] at hlast
    exact hlast
  | some familyId =>
    refine ends_of_next (h.trans (by rw [hfam]; rfl)) ?_
    rw [heffect]
    exact ends_of_last rfl

/-- Left alone, a call on a row that is not revoked leaves what `refreshLive` gives. -/
theorem refreshLive_ends (hrow : lookup RefreshToken.id token s.tokens = some stored)
    (hlive : stored.revokedAt = none) :
    Program.Ends (program cfg) i s (.find token) (refreshLive cfg s stored).1 := by
  have hfind : next cfg s (.find token) =
      if stored.expiresAt < s.now then some (.markRevoked stored.id s.now)
      else if s.now - stored.sessionStartedAt > cfg.absoluteTtlMs then
        stored.familyId.map .revokeFamily
      else some (.findUser stored s.now) := by
    simp only [next, hrow, Option.bind_some, hlive]
  unfold refreshLive
  by_cases hexp : stored.expiresAt < s.now
  · rw [if_pos hexp] at hfind ⊢
    exact ends_of_next hfind (ends_of_last rfl)
  · rw [if_neg hexp] at hfind ⊢
    by_cases habs : s.now - stored.sessionStartedAt > cfg.absoluteTtlMs
    · rw [if_pos habs] at hfind ⊢
      exact revokeEnded_ends rfl hfind
    · rw [if_neg habs] at hfind ⊢
      refine ends_of_next hfind ?_
      show Program.Ends (program cfg) i s (.findUser stored s.now) _
      cases huser : lookup User.id stored.userId s.users with
      | none => exact ends_of_last (by simp only [next, huser, Option.bind_none])
      | some user =>
        dsimp only
        have hnext : next cfg s (.findUser stored s.now) =
            if user.status ≠ .active then none
            else if user.sessionsValidFrom.any fun t ↦ stored.sessionStartedAt < t then
              stored.familyId.map .revokeFamily
            else some (.rotate stored s.now) := by
          simp only [next, huser, Option.bind_some]
        by_cases hactive : user.status ≠ .active
        · rw [if_pos hactive] at hnext ⊢
          exact ends_of_last hnext
        · rw [if_neg hactive] at hnext ⊢
          by_cases hvalid : (user.sessionsValidFrom.any fun t ↦ stored.sessionStartedAt < t) = true
          · rw [if_pos hvalid] at hnext ⊢
            exact revokeEnded_ends rfl hnext
          · rw [if_neg hvalid] at hnext ⊢
            have hsome : (lookup RefreshToken.id stored.id s.tokens).isSome := by
              rw [(lookup_spec hrow).2, hrow]
              rfl
            refine ends_of_next hnext (ends_of_next (if_pos hsome) ?_)
            exact ends_of_last rfl

theorem refresh_ends :
    Program.Ends (program cfg) i s (.verify token) (refresh cfg s token).1 := by
  unfold refresh
  split
  · rename_i hsigned
    refine ends_of_next (if_pos hsigned) ?_
    show Program.Ends (program cfg) i s (.find token) _
    cases hrow : lookup RefreshToken.id token s.tokens with
    | none => exact ends_of_last (by simp only [next, hrow, Option.bind_none])
    | some stored =>
      dsimp only
      cases hrevoked : stored.revokedAt with
      | none => exact refreshLive_ends hrow hrevoked
      | some revokedAt =>
        dsimp only
        by_cases hgrace : s.now - revokedAt ≤ cfg.graceMs
        · rw [if_pos hgrace]
          exact ends_of_last (by simp only [next, hrow, Option.bind_some, hrevoked, if_pos hgrace])
        · rw [if_neg hgrace]
          have hnext : next cfg s (.find token) =
              some (stored.familyId.elim (.deleteUserTokens stored.userId) .revokeFamily) := by
            simp only [next, hrow, Option.bind_some, hrevoked, if_neg hgrace]
            cases stored.familyId <;> rfl
          refine ends_of_next hnext ?_
          unfold revokeReused
          cases stored.familyId <;> exact ends_of_last rfl
  · rename_i hsigned
    exact ends_of_last (if_neg hsigned)

/-! ## The tokens after a call -/

/-- Every token was drawn from the counter. -/
def Drawn (s : Store) : Prop := ∀ r ∈ s.tokens, r.id < s.next

theorem Drawn.effect (h : Drawn s) (k : Call) : Drawn (effect cfg s k) := by
  intro r' hr'
  rcases mem_effect hr' with ⟨r, hr, hd⟩ | ⟨stored, now, rfl, ⟨r₀, hr₀, he₀⟩, rfl⟩ | ⟨userId, rfl, rfl⟩
  · rw [hd.id]
    exact Nat.lt_of_lt_of_le (h r hr) next_le_effect
  · have hsome : (lookup RefreshToken.id stored.id s.tokens).isSome := by
      rw [Option.isSome_iff_ne_none]
      exact fun hn ↦ lookup_eq_none.mp hn r₀ hr₀ he₀
    simp only [Refresh.effect, hsome, if_true]
    exact Nat.lt_succ_self _
  · exact Nat.lt_succ_self _

/-- What a call on a token that is good leaves: the token is rotated away for one that is good, or
the session has ended. -/
inductive Outcome (s : Store) : Store × Answer → Prop
  | rotated {t : Store} (hdrawn : Drawn t) (hnow : t.now = s.now) (hnext : s.next + 1 < t.next)
      (hrow : ∃ r ∈ t.tokens, r.id = s.next + 1)
      (hlive : ∀ r ∈ t.tokens, r.id = s.next + 1 → r.revokedAt = none) :
      Outcome s (t, .rotated (s.next + 1))
  | ended {t : Store} (hdrawn : Drawn t) (hnow : t.now = s.now) (hnext : s.next ≤ t.next)
      (message : String) : Outcome s (t, .unauthorized message)

theorem rotate_outcome (h : Drawn s) (hrow : stored ∈ s.tokens) :
    Outcome s (rotate cfg s stored, .rotated (s.next + 1)) := by
  have hsome : (lookup RefreshToken.id stored.id s.tokens).isSome := by
    rw [Option.isSome_iff_ne_none]
    exact fun hn ↦ lookup_eq_none.mp hn stored hrow rfl
  have htokens : (Refresh.effect cfg s (.rotate stored s.now)).tokens =
      modify RefreshToken.id stored.id (replaceToken s.now (s.next + 1)) s.tokens ++
        [rotatedToken cfg s stored] := by
    simp only [Refresh.effect, hsome, if_true]
  have hnext : (Refresh.effect cfg s (.rotate stored s.now)).next = s.next + 2 := by
    simp only [Refresh.effect, hsome, if_true]
  refine .rotated ((h.effect _).effect _) ?_ ?_ ?_ ?_
  · exact (effect_now ..).trans (effect_now ..)
  · show s.next + 1 < (Refresh.effect cfg s (.rotate stored s.now)).next
    rw [hnext]
    exact Nat.lt_succ_self _
  · refine ⟨rotatedToken cfg s stored, List.mem_filter.mpr ⟨?_, ?_⟩, rfl⟩
    · rw [htokens]
      exact List.mem_append_right _ (List.mem_singleton_self _)
    · simp [isOldRevoked, rotatedToken]
  · intro r hr hid
    have hmem : r ∈ (Refresh.effect cfg s (.rotate stored s.now)).tokens :=
      List.mem_of_mem_filter hr
    rw [htokens] at hmem
    rcases List.mem_append.mp hmem with hmem | hmem
    · -- the rows that were there have smaller numbers
      have hlt : r.id < s.next := by
        rcases mem_modify.mp hmem with ⟨hr, -⟩ | ⟨q, hq, -, rfl⟩
        · exact h r hr
        · exact h q hq
      omega
    · rw [List.mem_singleton.mp hmem]
      rfl

theorem revokeEnded_ended (h : Drawn s) (message : String) :
    Outcome s (revokeEnded cfg s stored, .unauthorized message) := by
  unfold revokeEnded
  split
  · exact .ended (h.effect _) (effect_now ..) next_le_effect message
  · exact .ended h rfl (Nat.le_refl _) message

theorem refresh_live (h : Drawn s) (hrow : ∃ r ∈ s.tokens, r.id = token)
    (hlive : ∀ r ∈ s.tokens, r.id = token → r.revokedAt = none) :
    Outcome s (refresh cfg s token) := by
  unfold refresh
  split
  · cases hfind : lookup RefreshToken.id token s.tokens with
    | none =>
      obtain ⟨r, hr, hid⟩ := hrow
      exact absurd hid (lookup_eq_none.mp hfind r hr)
    | some stored =>
      obtain ⟨hmem, hid⟩ := lookup_spec hfind
      dsimp only
      rw [hlive stored hmem hid]
      dsimp only [refreshLive]
      split
      · exact .ended (h.effect _) (effect_now ..) next_le_effect _
      · split
        · exact revokeEnded_ended h _
        · split
          · exact .ended h rfl (Nat.le_refl _) _
          · split
            · exact .ended h rfl (Nat.le_refl _) _
            · split
              · exact revokeEnded_ended h _
              · exact rotate_outcome h hmem
  · exact .ended h rfl (Nat.le_refl _) _

end Shellius.Refresh
