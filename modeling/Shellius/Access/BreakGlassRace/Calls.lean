import Shellius.Access.World

/-!
# Break-glass, step by step

`verifyBreakGlass` once more, now with each of its commands to the cache and the
database on its own, so that any number of calls may be under way at once, among
themselves and among the other operations of the service.
-/

namespace Shellius.BreakGlassRace

open Lib

/-! ## The program -/

structure Store extends World where
  checked : Id → Nat := fun _ ↦ 0
  created : Id → Nat := fun _ ↦ 0

/-- Why a challenge is burnt. -/
inductive Reason
  | refused
  | exhausted
  | granted (payload : Challenge) (server : Server) (policy : AccessPolicy)

/-- The command a call sends next. -/
inductive Point
  | readAttempts
  | readChallenge
  | findInvoker (payload : Challenge)
  | findServer (payload : Challenge) (invoker : User)
  | checkProd (payload : Challenge) (invoker : User) (server : Server)
  | findPolicy (payload : Challenge) (invoker : User) (server : Server)
  | checkActive (payload : Challenge) (invoker : User) (server : Server) (policy : AccessPolicy)
  | checkFactor (payload : Challenge) (invoker : User) (server : Server) (policy : AccessPolicy)
  | useOtp (payload : Challenge) (server : Server) (policy : AccessPolicy) (tokenId : Id)
  | countAttempt
  | expireAttempts
  | burnChallenge (reason : Reason)
  | burnAttempts (reason : Reason)
  | create (payload : Challenge) (server : Server) (policy : AccessPolicy)

/-- A call of `verifyBreakGlass`. -/
structure Call where
  params : VerifyBreakGlassParams
  point : Point

section

variable (crypto : Crypto) (s : Store) (params : VerifyBreakGlassParams)

/-- The rows a new request refers to are there. -/
def Refers (payload : Challenge) : Prop :=
  params.invokerId ∈ s.db.users.map User.id ∧ payload.serverId ∈ s.db.servers.map Server.id

instance (payload : Challenge) : Decidable (Refers s params payload) :=
  inferInstanceAs (Decidable (_ ∧ _))

/-- The store after a command; `id` is the key of a row it creates. -/
def effect (id : Id) : Point → Store
  | .checkFactor .. =>
    { s with
      checked := Function.update s.checked params.challengeId
        (s.checked params.challengeId + 1) }
  | .useOtp _ _ _ tokenId => { s with userTokens := useEmailOtp s.now s.userTokens tokenId }
  | .countAttempt => { s with attempts := (s.attempts.incr s.now params.challengeId).2 }
  | .expireAttempts =>
    { s with
      attempts := s.attempts.expire s.now params.challengeId
        (s.now + breakGlassChallengeTtlMs) }
  | .burnChallenge _ => { s with challenges := s.challenges.del params.challengeId }
  | .burnAttempts _ => { s with attempts := s.attempts.del params.challengeId }
  | .create payload server policy =>
    if Refers s params payload then
      { s with
        accessRequests := s.accessRequests ++
          [breakGlassRow id s.now params payload server policy]
        drawn := id :: s.drawn
        created := Function.update s.created params.challengeId
          (s.created params.challengeId + 1) }
    else s
  | _ => s

/-- Where a call goes after a command, given what the command saw; `none` is its
return. -/
def next : Point → Option Point
  | .readAttempts =>
    match checkVerifyBreakGlass params with
    | .error _ => none
    | .ok () =>
      if breakGlassMaxAttempts ≤ (s.attempts.get s.now params.challengeId).getD 0 then
        some (.burnChallenge .refused)
      else some .readChallenge
  | .readChallenge =>
    match s.challenges.get s.now params.challengeId with
    | none => none
    | some payload => if ¬ isFor params payload then none else some (.findInvoker payload)
  | .findInvoker payload =>
    match activeUser s.db params.orgId params.invokerId with
    | none => some (.burnChallenge .refused)
    | some invoker => some (.findServer payload invoker)
  | .findServer payload invoker =>
    match s.db.server params.orgId payload.serverId with
    | none => some (.burnChallenge .refused)
    | some server => some (.checkProd payload invoker server)
  | .checkProd payload invoker server =>
    match assertBreakGlassProdAllowed s.db params.orgId server with
    | .error _ => some (.burnChallenge .refused)
    | .ok () => some (.findPolicy payload invoker server)
  | .findPolicy payload invoker server =>
    match findBreakGlassPolicy s.db params.orgId params.invokerId payload.serverId with
    | none => some (.burnChallenge .refused)
    | some policy => some (.checkActive payload invoker server policy)
  | .checkActive payload invoker server policy =>
    match assertNoActiveBreakGlass s.accessRequests params.orgId payload.serverId s.now with
    | .error _ => some (.burnChallenge .refused)
    | .ok () => some (.checkFactor payload invoker server policy)
  | .checkFactor payload invoker server policy =>
    match payload.method with
    | .totp =>
      if verifyTotp crypto s.now invoker params.code then
        some (.burnChallenge (.granted payload server policy))
      else some .countAttempt
    | .email =>
      match findEmailOtp crypto s.userTokens invoker.id params.code with
      | none => some .countAttempt
      | some rec =>
        if rec.expiresAt < s.now then some .countAttempt
        else some (.useOtp payload server policy rec.id)
  | .useOtp payload server policy tokenId =>
    -- the update of a row that is gone throws
    if tokenId ∈ s.userTokens.map UserToken.id then
      some (.burnChallenge (.granted payload server policy))
    else none
  | .countAttempt =>
    let count := (s.attempts.incr s.now params.challengeId).1
    if count = 1 then some .expireAttempts
    else if breakGlassMaxAttempts ≤ count then some (.burnChallenge .exhausted)
    else none
  | .expireAttempts => none
  | .burnChallenge reason => some (.burnAttempts reason)
  | .burnAttempts (.granted payload server policy) => some (.create payload server policy)
  | .burnAttempts _ => none
  | .create .. => none

end

/-- The calls of `verifyBreakGlass` among the other operations.  `home` is the
organization of each server, which it never leaves. -/
def program (cfg : Config) (home : Id → Id) :
    Program Store VerifyBreakGlassParams Call Id World.Op where
  start params := ⟨params, .readAttempts⟩
  act _ s k id :=
    if id ∈ s.drawn then none
    else some (effect s k.params id k.point,
      (next cfg.toCrypto s k.params k.point).map fun point ↦ ⟨k.params, point⟩)
  env s
    | .verifyBreakGlass _ _ => none
    | op =>
      (World.step cfg s.toWorld op).bind fun w ↦
        if ∀ server ∈ w.db.servers, server.orgId = home server.id then
          some { s with toWorld := w }
        else none

end Shellius.BreakGlassRace
