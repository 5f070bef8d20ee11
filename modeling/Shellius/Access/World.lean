import Shellius.Access.BreakGlass
import Shellius.Access.Certificate

/-!
# The service as a whole

The operations on access requests, one after the other, over the tables they
share, while time passes and the organization changes underneath.

`World.step_rows` and `World.step_certificates` say all there is to say about
how one step makes the rows of the next state; every result about runs of the
service rests on these two.
-/

namespace Shellius

open Lib

/-- What the operations depend on from outside the database. -/
structure Config extends Crypto where
  /-- `config.certificates.checkUserStatus` -/
  checkUserStatus : Bool := true

structure World where
  now : Millis
  db : Database
  accessRequests : List AccessRequest := []
  certificates : List Certificate := []
  userTokens : List UserToken := []
  challenges : Challenges := fun _ ↦ none
  attempts : Attempts := fun _ ↦ none
  /-- The keys of requests, certificates and challenges drawn so far. -/
  drawn : List Id := []

namespace World

/-! ## Operations -/

section

variable (w : World)

def submit (id : Id) (params : SubmitParams) : Except ApiError World :=
  match Shellius.submit w.db w.now id params with
  | .error e => .error e
  | .ok r => .ok { w with accessRequests := w.accessRequests ++ [r], drawn := id :: w.drawn }

def review (params : ReviewParams) : Except ApiError World :=
  match checkReviewParams params with
  | .error e => .error e
  | .ok decision =>
    match lookup AccessRequest.id params.requestId w.accessRequests with
    | none => .error ⟨404, "Access request not found", none⟩
    | some r =>
      match reviewRow w.db w.now params decision r with
      | .error e => .error e
      | .ok r' =>
        .ok { w with
          accessRequests := modify AccessRequest.id r.id (fun _ ↦ r') w.accessRequests }

/-- The request `revoke` finds. -/
def findToRevoke (params : RevokeParams) : Option AccessRequest :=
  w.accessRequests.find? fun r ↦ r.id = params.requestId ∧ r.orgId = params.orgId

def revoke (params : RevokeParams) : Except ApiError World :=
  match checkRevokeParams params with
  | .error e => .error e
  | .ok () =>
    match w.findToRevoke params with
    | none => .error ⟨404, "Access request not found", none⟩
    | some r =>
      match checkRevoke params r with
      | .error e => .error e
      | .ok () =>
        .ok { w with
          accessRequests :=
            modify AccessRequest.id r.id (revokeRow params w.now) w.accessRequests
          certificates := revokeLinked r.certificateId w.certificates }

/-- `markExpired`.  The rows are different ones, so that updating one after the
other is updating them at once. -/
def markExpired : World :=
  { w with
    accessRequests := w.accessRequests.map fun r ↦ if hasExpired w.now r then expireRow r else r
    certificates := (w.accessRequests.filter (hasExpired w.now)).foldl
      (fun certificates r ↦ revokeLinked r.certificateId certificates) w.certificates }

def markPendingExpired : World :=
  { w with
    accessRequests := w.accessRequests.map fun r ↦
      if isStale (pendingCutoff w.now) r then expireRow r else r }

def linkRow (certId : Id) (r : AccessRequest) : AccessRequest :=
  { r with certificateId := some certId }

def generateSshCredentials (params : GenerateParams) (signed : Option Signed) :
    Except ApiError World :=
  if params.requestId = "" then .error ⟨400, "requestId is required", none⟩
  else if params.callerId = "" then .error ⟨400, "callerId is required", none⟩
  else
    match lookup AccessRequest.id params.requestId w.accessRequests with
    | none => .error ⟨404, "Access request not found", none⟩
    | some r =>
      match lookup Server.id r.serverId w.db.servers with
      | none => .error ⟨404, "Access request not found", none⟩ -- it goes with its server
      | some server =>
        match Shellius.generateSshCredentials w.db w.now params signed r server with
        | .error e => .error e
        | .ok cert =>
          .ok { w with
            accessRequests :=
              modify AccessRequest.id params.requestId (linkRow cert.id) w.accessRequests
            certificates := w.certificates ++ [cert]
            drawn := cert.id :: w.drawn }

def verify (checkUserStatus : Bool) (params : VerifyParams) : VerifyResult × World :=
  let (result, users) := verifyCertificate checkUserStatus w.db w.accessRequests w.certificates
    w.now params
  (result, { w with db := { w.db with users } })

/-- `burnBreakGlassChallenge` -/
def burn (challengeId : Id) : World :=
  { w with
    challenges := w.challenges.del challengeId
    attempts := w.attempts.del challengeId }

/-- The one-time code a challenge by e-mail needs. -/
structure Mail where
  tokenId : Id
  code : String
  delivered : Bool

/-- Sends the code of a challenge by e-mail, which is within the limit of sends of a
new challenge. -/
def sendCode (crypto : Crypto) (payload : Challenge) (invoker : User) (mail : Mail) :
    Except ApiError Unit × List UserToken :=
  match payload.method with
  | .totp => (.ok (), w.userTokens)
  | .email =>
    dispatchEmailOtp crypto w.now w.userTokens invoker mail.tokenId mail.code mail.delivered

def startBreakGlass (crypto : Crypto) (challengeId : Id) (mail : Mail)
    (params : StartBreakGlassParams) : Except ApiError Unit × World :=
  match checkStartBreakGlass w.db w.accessRequests w.now params with
  | .error e => (.error e, w)
  | .ok (payload, invoker) =>
    match w.sendCode crypto payload invoker mail with
    | (.error e, userTokens) => (.error e, { w with userTokens })
    | (.ok (), userTokens) =>
      (.ok (), { w with
        userTokens
        challenges :=
          w.challenges.set challengeId payload (some (w.now + breakGlassChallengeTtlMs))
        drawn := challengeId :: w.drawn })

def countAttempt (challengeId : Id) : Bool × World :=
  let (count, attempts) := w.attempts.incr w.now challengeId
  let attempts := if count = 1 then
      attempts.expire w.now challengeId (w.now + breakGlassChallengeTtlMs)
    else attempts
  (breakGlassMaxAttempts ≤ count, { w with attempts })

def verifyBreakGlass (crypto : Crypto) (id : Id) (params : VerifyBreakGlassParams) :
    Except ApiError AccessRequest × World :=
  match checkVerifyBreakGlass params with
  | .error e => (.error e, w)
  | .ok () =>
    if breakGlassMaxAttempts ≤ (w.attempts.get w.now params.challengeId).getD 0 then
      (.error tooManyAttemptsError, w.burn params.challengeId)
    else
      match w.challenges.get w.now params.challengeId with
      | none => (.error expiredError, w)
      | some payload =>
        if ¬ isFor params payload then (.error expiredError, w)
        else
          match recheckBreakGlass w.db w.accessRequests w.now params payload with
          | .error e => (.error e, w.burn params.challengeId)
          | .ok (invoker, server, policy) =>
            match verifyFactor crypto w.now w.userTokens invoker payload.method
                params.code with
            | (true, userTokens) =>
              let r := breakGlassRow id w.now params payload server policy
              (.ok r, { w.burn params.challengeId with
                userTokens
                accessRequests := w.accessRequests ++ [r]
                drawn := id :: w.drawn })
            | (false, _) =>
              match w.countAttempt params.challengeId with
              | (true, w') =>
                (.error tooManyAttemptsError, w'.burn params.challengeId)
              | (false, w') => (.error invalidCodeError, w')

/-- A request without the users that are gone. -/
def detach (db : Database) (r : AccessRequest) : AccessRequest :=
  { r with
    reviewerId := r.reviewerId.filter fun u ↦ u ∈ db.users.map User.id
    approvers := r.approvers.filter fun u ↦ u ∈ db.users.map User.id }

/-- A certificate without the user and the server that are gone. -/
def detachCertificate (db : Database) (c : Certificate) : Certificate :=
  { c with
    issuedToId := c.issuedToId.filter fun u ↦ u ∈ db.users.map User.id
    issuedForId := c.issuedForId.filter fun s ↦ s ∈ db.servers.map Server.id }

/-- Anything happens to the organization data; the foreign keys cascade. -/
def changeOrg (db : Database) : World :=
  { w with
    db
    accessRequests := (w.accessRequests.filter fun r ↦
      r.requesterId ∈ db.users.map User.id ∧ r.serverId ∈ db.servers.map Server.id).map (detach db)
    certificates := w.certificates.map (detachCertificate db)
    userTokens := w.userTokens.filter fun t ↦ t.userId ∈ db.users.map User.id }

end

/-! ## Runs -/

/-- One thing that happens, with what comes from outside: keys, a signature, a
one-time code. -/
inductive Op
  | tick (now : Millis)
  | changeOrg (db : Database)
  | submit (id : Id) (params : SubmitParams)
  | review (params : ReviewParams)
  | revoke (params : RevokeParams)
  | markExpired
  | markPendingExpired
  | generateSshCredentials (params : GenerateParams) (signed : Option Signed)
  | verify (params : VerifyParams)
  | startBreakGlass (challengeId : Id) (mail : Mail) (params : StartBreakGlassParams)
  | verifyBreakGlass (id : Id) (params : VerifyBreakGlassParams)

def after (w : World) (outcome : Except ApiError World) : World :=
  match outcome with
  | .ok w' => w'
  | .error _ => w

variable (cfg : Config)

/-- One step of the service.  Keys and serial numbers are never drawn twice, and a
`cuid()` is never empty. -/
def step (w : World) : Op → Option World
  | .tick now => if w.now ≤ now then some { w with now } else none
  | .changeOrg db => some (w.changeOrg db)
  | .submit id params => if id ∈ w.drawn then none else some (w.after (w.submit id params))
  | .review params => some (w.after (w.review params))
  | .revoke params => some (w.after (w.revoke params))
  | .markExpired => some w.markExpired
  | .markPendingExpired => some w.markPendingExpired
  | .generateSshCredentials params signed =>
    if signed.all fun s ↦ s.id ≠ "" ∧ s.id ∉ w.drawn ∧
        s.serial ∉ w.certificates.map Certificate.serial then
      some (w.after (w.generateSshCredentials params signed))
    else none
  | .verify params => some (w.verify cfg.checkUserStatus params).2
  | .startBreakGlass challengeId mail params =>
    if challengeId ∈ w.drawn then none
    else some (w.startBreakGlass cfg.toCrypto challengeId mail params).2
  | .verifyBreakGlass id params =>
    if id ∈ w.drawn then none else some (w.verifyBreakGlass cfg.toCrypto id params).2

/-- A deployment in which no second factor is ever accepted. -/
def plainConfig : Config where
  totpCheck := fun _ _ _ ↦ false
  sha256 := id

structure Initial (w : World) : Prop where
  accessRequests : w.accessRequests = []
  certificates : w.certificates = []

/-! ## What an operation does -/

section

variable {cfg : Config} {w w' : World} {op : Op} {r : AccessRequest}

theorem submit_ok {id : Id} {params : SubmitParams} (h : w.submit id params = .ok w') :
    ∃ r, Shellius.submit w.db w.now id params = .ok r ∧
      w' = { w with accessRequests := w.accessRequests ++ [r], drawn := id :: w.drawn } := by
  unfold submit at h
  cases hs : Shellius.submit w.db w.now id params with
  | error e => simp [hs] at h
  | ok r => exact ⟨r, rfl, by simpa [hs] using h.symm⟩

theorem review_ok {params : ReviewParams} (h : w.review params = .ok w') :
    ∃ decision r r', checkReviewParams params = .ok decision ∧
      lookup AccessRequest.id params.requestId w.accessRequests = some r ∧
      reviewRow w.db w.now params decision r = .ok r' ∧
      w' = { w with
        accessRequests := modify AccessRequest.id r.id (fun _ ↦ r') w.accessRequests } := by
  unfold review at h
  split at h
  · cases h
  rename_i decision hd
  split at h
  · cases h
  rename_i r hr
  split at h
  · cases h
  rename_i r' hr'
  exact ⟨decision, r, r', hd, hr, hr', by simpa using h.symm⟩

theorem revoke_ok {params : RevokeParams} (h : w.revoke params = .ok w') :
    ∃ r, checkRevokeParams params = .ok () ∧ w.findToRevoke params = some r ∧
      checkRevoke params r = .ok () ∧
      w' = { w with
        accessRequests := modify AccessRequest.id r.id (revokeRow params w.now) w.accessRequests
        certificates := revokeLinked r.certificateId w.certificates } := by
  unfold revoke at h
  split at h
  · cases h
  rename_i hp
  split at h
  · cases h
  rename_i r hr
  split at h
  · cases h
  rename_i hc
  exact ⟨r, hp, hr, hc, by simpa using h.symm⟩

theorem generateSshCredentials_ok {params : GenerateParams} {signed : Option Signed}
    (h : w.generateSshCredentials params signed = .ok w') :
    ∃ r server cert, lookup AccessRequest.id params.requestId w.accessRequests = some r ∧
      Shellius.generateSshCredentials w.db w.now params signed r server = .ok cert ∧
      w' = { w with
        accessRequests :=
          modify AccessRequest.id params.requestId (linkRow cert.id) w.accessRequests
        certificates := w.certificates ++ [cert]
        drawn := cert.id :: w.drawn } := by
  unfold generateSshCredentials at h
  split at h
  · cases h
  split at h
  · cases h
  split at h
  · cases h
  rename_i r hr
  split at h
  · cases h
  rename_i server hs
  split at h
  · cases h
  rename_i cert hc
  exact ⟨r, server, cert, hr, hc, by simpa using h.symm⟩

/-- All that `verifyBreakGlass` asks for before it grants a session. -/
structure MayGrant (crypto : Crypto) (w : World) (params : VerifyBreakGlassParams)
    (payload : Challenge) (invoker : User) (server : Server) (policy : AccessPolicy) : Prop where
  permitted : checkVerifyBreakGlass params = .ok ()
  attempts : (w.attempts.get w.now params.challengeId).getD 0 < breakGlassMaxAttempts
  challenge : w.challenges.get w.now params.challengeId = some payload
  owner : isFor params payload = true
  recheck : recheckBreakGlass w.db w.accessRequests w.now params payload =
    .ok (invoker, server, policy)
  factor : (verifyFactor crypto w.now w.userTokens invoker payload.method params.code).1 = true

/-- The session `verifyBreakGlass` grants. -/
def Granted (crypto : Crypto) (w : World) (id : Id) (params : VerifyBreakGlassParams)
    (r : AccessRequest) : Prop :=
  ∃ payload invoker server policy, MayGrant crypto w params payload invoker server policy ∧
    r = breakGlassRow id w.now params payload server policy

/-- Nothing else keeps `verifyBreakGlass` from granting it. -/
theorem verifyBreakGlass_of_granted {crypto : Crypto} {id : Id} {params : VerifyBreakGlassParams}
    (h : Granted crypto w id params r) :
    (w.verifyBreakGlass crypto id params).2.accessRequests = w.accessRequests ++ [r] := by
  obtain ⟨payload, invoker, server, policy, hg, rfl⟩ := h
  unfold verifyBreakGlass
  simp only [hg.permitted, if_neg (Nat.not_le.mpr hg.attempts), hg.challenge, hg.owner,
    not_true_eq_false, if_false, hg.recheck]
  split
  · rfl
  · rename_i hf
    exact absurd hg.factor (by simp [hf])

inductive Effect (cfg : Config) (w : World) : Op → World → Prop
  | failed {op : Op} : Effect cfg w op w
  | ticked {now : Millis} : w.now ≤ now → Effect cfg w (.tick now) { w with now }
  | changed {db : Database} : Effect cfg w (.changeOrg db) (w.changeOrg db)
  | submitted {id : Id} {params : SubmitParams} {r : AccessRequest} : id ∉ w.drawn →
      Shellius.submit w.db w.now id params = .ok r →
      Effect cfg w (.submit id params)
        { w with accessRequests := w.accessRequests ++ [r], drawn := id :: w.drawn }
  | reviewed {params : ReviewParams} {decision : Decision} {r r' : AccessRequest} :
      checkReviewParams params = .ok decision →
      lookup AccessRequest.id params.requestId w.accessRequests = some r →
      reviewRow w.db w.now params decision r = .ok r' →
      Effect cfg w (.review params)
        { w with accessRequests := modify AccessRequest.id r.id (fun _ ↦ r') w.accessRequests }
  | revoked {params : RevokeParams} {r : AccessRequest} : checkRevokeParams params = .ok () →
      w.findToRevoke params = some r → checkRevoke params r = .ok () →
      Effect cfg w (.revoke params)
        { w with
          accessRequests := modify AccessRequest.id r.id (revokeRow params w.now) w.accessRequests
          certificates := revokeLinked r.certificateId w.certificates }
  | expired : Effect cfg w .markExpired w.markExpired
  | stale : Effect cfg w .markPendingExpired w.markPendingExpired
  | issued {params : GenerateParams} {signed : Option Signed} {r : AccessRequest}
      {server : Server} {c : Certificate} : c.id ≠ "" → c.id ∉ w.drawn →
      c.serial ∉ w.certificates.map Certificate.serial →
      lookup AccessRequest.id params.requestId w.accessRequests = some r →
      Shellius.generateSshCredentials w.db w.now params signed r server = .ok c →
      Effect cfg w (.generateSshCredentials params signed)
        { w with
          accessRequests := modify AccessRequest.id params.requestId (linkRow c.id) w.accessRequests
          certificates := w.certificates ++ [c]
          drawn := c.id :: w.drawn }
  | verified {params : VerifyParams} {users : List User} :
      Effect cfg w (.verify params) { w with db := { w.db with users } }
  | started {challengeId : Id} {mail : Mail} {params : StartBreakGlassParams}
      {userTokens : List UserToken} {challenges : Challenges} {drawn : List Id} :
      (∀ id ∈ w.drawn, id ∈ drawn) →
      Effect cfg w (.startBreakGlass challengeId mail params)
        { w with userTokens, challenges, drawn }
  | refused {id : Id} {params : VerifyBreakGlassParams} {challenges : Challenges}
      {attempts : Attempts} :
      Effect cfg w (.verifyBreakGlass id params) { w with challenges, attempts }
  | granted {id : Id} {params : VerifyBreakGlassParams} {r : AccessRequest}
      {challenges : Challenges} {attempts : Attempts} {userTokens : List UserToken} :
      id ∉ w.drawn → Granted cfg.toCrypto w id params r →
      Effect cfg w (.verifyBreakGlass id params)
        { w with
          challenges
          attempts
          userTokens
          accessRequests := w.accessRequests ++ [r]
          drawn := id :: w.drawn }

theorem startBreakGlass_effect {challengeId : Id} {mail : Mail} {params : StartBreakGlassParams} :
    Effect cfg w (.startBreakGlass challengeId mail params)
      (w.startBreakGlass cfg.toCrypto challengeId mail params).2 := by
  unfold startBreakGlass
  split
  · exact .failed
  split
  · exact .started fun _ h ↦ h
  · exact .started fun _ h ↦ List.mem_cons_of_mem _ h

theorem verifyBreakGlass_effect {id : Id} {params : VerifyBreakGlassParams} (hid : id ∉ w.drawn) :
    Effect cfg w (.verifyBreakGlass id params) (w.verifyBreakGlass cfg.toCrypto id params).2 := by
  unfold verifyBreakGlass
  split
  · exact .failed
  rename_i hparams
  split
  · exact .refused
  rename_i hattempts
  split
  · exact .failed
  rename_i payload hp
  split
  · exact .failed
  rename_i hfor
  split
  · exact .refused
  rename_i invoker server policy hc
  split
  · rename_i userTokens hf
    exact .granted hid ⟨payload, invoker, server, policy,
      ⟨hparams, Nat.not_le.mp hattempts, hp, not_not.mp hfor, hc, by rw [hf]⟩, rfl⟩
  · split
    · rename_i w' hw
      obtain ⟨-, rfl⟩ := Prod.mk.inj hw
      exact .refused
    · rename_i w' hw
      obtain ⟨-, rfl⟩ := Prod.mk.inj hw
      exact .refused

theorem after_cases (w : World) (outcome : Except ApiError World) :
    outcome = .ok (w.after outcome) ∨ w.after outcome = w := by
  cases outcome with
  | ok w' => exact .inl rfl
  | error e => exact .inr rfl

theorem submit_effect {id : Id} {params : SubmitParams} (hid : id ∉ w.drawn) :
    Effect cfg w (.submit id params) (w.after (w.submit id params)) := by
  rcases after_cases w (w.submit id params) with h | h
  · obtain ⟨r, hr, he⟩ := submit_ok h
    rw [he]
    exact .submitted hid hr
  · rw [h]; exact .failed

theorem review_effect {params : ReviewParams} :
    Effect cfg w (.review params) (w.after (w.review params)) := by
  rcases after_cases w (w.review params) with h | h
  · obtain ⟨decision, r, r', hd, hr, hr', he⟩ := review_ok h
    rw [he]
    exact .reviewed hd hr hr'
  · rw [h]; exact .failed

theorem revoke_effect {params : RevokeParams} :
    Effect cfg w (.revoke params) (w.after (w.revoke params)) := by
  rcases after_cases w (w.revoke params) with h | h
  · obtain ⟨r, hp, hr, hc, he⟩ := revoke_ok h
    rw [he]
    exact .revoked hp hr hc
  · rw [h]; exact .failed

theorem generateSshCredentials_effect {params : GenerateParams} {signed : Option Signed}
    (hfresh : ∀ s, signed = some s → s.id ≠ "" ∧ s.id ∉ w.drawn ∧
      s.serial ∉ w.certificates.map Certificate.serial) :
    Effect cfg w (.generateSshCredentials params signed)
      (w.after (w.generateSshCredentials params signed)) := by
  rcases after_cases w (w.generateSshCredentials params signed) with h | h
  · obtain ⟨r, server, c, hr, hc, he⟩ := generateSshCredentials_ok h
    obtain ⟨s, _, _, hs, -, hrow⟩ := Shellius.generateSshCredentials_ok hc
    obtain ⟨hne, hid, hserial⟩ := hfresh s hs
    rw [he]
    subst hrow
    exact .issued hne hid hserial hr hc
  · rw [h]; exact .failed

theorem step_effect (h : step cfg w op = some w') : Effect cfg w op w' := by
  cases op with
  | tick now =>
    obtain ⟨hle, h⟩ := Option.ite_none_right_eq_some.mp h
    obtain rfl := Option.some.inj h
    exact .ticked hle
  | submit id params =>
    obtain ⟨hid, h⟩ := Option.ite_none_left_eq_some.mp h
    obtain rfl := Option.some.inj h
    exact submit_effect hid
  | generateSshCredentials params signed =>
    obtain ⟨hfresh, h⟩ := Option.ite_none_right_eq_some.mp h
    obtain rfl := Option.some.inj h
    exact generateSshCredentials_effect fun s hs ↦ by simpa [hs] using hfresh
  | startBreakGlass challengeId mail params =>
    obtain ⟨-, h⟩ := Option.ite_none_left_eq_some.mp h
    obtain rfl := Option.some.inj h
    exact startBreakGlass_effect
  | verifyBreakGlass id params =>
    obtain ⟨hid, h⟩ := Option.ite_none_left_eq_some.mp h
    obtain rfl := Option.some.inj h
    exact verifyBreakGlass_effect hid
  | changeOrg db => obtain rfl := Option.some.inj h; exact .changed
  | review params => obtain rfl := Option.some.inj h; exact review_effect
  | revoke params => obtain rfl := Option.some.inj h; exact revoke_effect
  | markExpired => obtain rfl := Option.some.inj h; exact .expired
  | markPendingExpired => obtain rfl := Option.some.inj h; exact .stale
  | verify params => obtain rfl := Option.some.inj h; exact .verified

/-! ## Where rows come from -/

inductive RowStep (cfg : Config) (w : World) : Op → AccessRequest → Prop
  | kept {op : Op} {r : AccessRequest} : r ∈ w.accessRequests → RowStep cfg w op r
  | detached {db : Database} {r : AccessRequest} : r ∈ w.accessRequests →
      RowStep cfg w (.changeOrg db) (detach db r)
  | submitted {id : Id} {params : SubmitParams} {r : AccessRequest} : id ∉ w.drawn →
      Shellius.submit w.db w.now id params = .ok r → RowStep cfg w (.submit id params) r
  | reviewed {params : ReviewParams} {decision : Decision} {r r' : AccessRequest} :
      lookup AccessRequest.id params.requestId w.accessRequests = some r →
      checkReviewParams params = .ok decision →
      reviewRow w.db w.now params decision r = .ok r' → RowStep cfg w (.review params) r'
  | revoked {params : RevokeParams} {r : AccessRequest} : r ∈ w.accessRequests →
      w.findToRevoke params = some r → checkRevoke params r = .ok () →
      RowStep cfg w (.revoke params) (revokeRow params w.now r)
  | expired {r : AccessRequest} : r ∈ w.accessRequests → hasExpired w.now r →
      RowStep cfg w .markExpired (expireRow r)
  | stale {r : AccessRequest} : r ∈ w.accessRequests → isStale (pendingCutoff w.now) r →
      RowStep cfg w .markPendingExpired (expireRow r)
  | linked {params : GenerateParams} {signed : Option Signed} {server : Server}
      {c : Certificate} {r : AccessRequest} : c.id ∉ w.drawn →
      lookup AccessRequest.id params.requestId w.accessRequests = some r →
      Shellius.generateSshCredentials w.db w.now params signed r server = .ok c →
      RowStep cfg w (.generateSshCredentials params signed) (linkRow c.id r)
  | granted {id : Id} {params : VerifyBreakGlassParams} {r : AccessRequest} : id ∉ w.drawn →
      Granted cfg.toCrypto w id params r → RowStep cfg w (.verifyBreakGlass id params) r

inductive CertificateStep (w : World) : Op → Certificate → Prop
  | kept {op : Op} {c : Certificate} : c ∈ w.certificates → CertificateStep w op c
  | detached {db : Database} {c : Certificate} : c ∈ w.certificates →
      CertificateStep w (.changeOrg db) (detachCertificate db c)
  | revoked {op : Op} {r : AccessRequest} {c : Certificate} : r ∈ w.accessRequests →
      truthy r.certificateId = some c.id → c ∈ w.certificates →
      (∃ params, op = .revoke params ∧ w.findToRevoke params = some r) ∨
        (op = .markExpired ∧ hasExpired w.now r) →
      CertificateStep w op { c with status := .revoked }
  | issued {params : GenerateParams} {signed : Option Signed} {server : Server}
      {r : AccessRequest} {c : Certificate} : c.id ∉ w.drawn →
      lookup AccessRequest.id params.requestId w.accessRequests = some r →
      Shellius.generateSshCredentials w.db w.now params signed r server = .ok c →
      CertificateStep w (.generateSshCredentials params signed) c

theorem findToRevoke_spec {params : RevokeParams} (h : w.findToRevoke params = some r) :
    r ∈ w.accessRequests ∧ r.id = params.requestId ∧ r.orgId = params.orgId := by
  have hp := List.find?_some h
  simp only [decide_eq_true_eq] at hp
  exact ⟨List.mem_of_find?_eq_some h, hp⟩

/-- Every request after a step comes from one before, or is new. -/
theorem step_rows (hkey : (w.accessRequests.map AccessRequest.id).Nodup)
    (h : step cfg w op = some w') (hr : r ∈ w'.accessRequests) : RowStep cfg w op r := by
  cases step_effect h with
  | changed =>
    obtain ⟨q, hq, rfl⟩ := List.mem_map.mp hr
    exact .detached (List.mem_of_mem_filter hq)
  | submitted hid hq =>
    rcases List.mem_append.mp hr with hr | hr
    · exact .kept hr
    · rw [List.mem_singleton.mp hr]
      exact .submitted hid hq
  | reviewed hd hq hq' =>
    rcases mem_modify.mp hr with ⟨hr, -⟩ | ⟨-, -, -, rfl⟩
    · exact .kept hr
    · exact .reviewed hq hd hq'
  | revoked _ hq hc =>
    rcases mem_modify.mp hr with ⟨hr, -⟩ | ⟨a, ha, hid, rfl⟩
    · exact .kept hr
    · obtain rfl := List.inj_on_of_nodup_map hkey ha (findToRevoke_spec hq).1 hid
      exact .revoked ha hq hc
  | expired =>
    obtain ⟨q, hq, rfl⟩ := List.mem_map.mp hr
    split
    · rename_i he; exact .expired hq he
    · exact .kept hq
  | stale =>
    obtain ⟨q, hq, rfl⟩ := List.mem_map.mp hr
    split
    · rename_i he; exact .stale hq he
    · exact .kept hq
  | issued _ hfresh _ hq hc =>
    obtain ⟨hqm, hqid⟩ := lookup_spec hq
    rcases mem_modify.mp hr with ⟨hr, -⟩ | ⟨a, ha, hid, rfl⟩
    · exact .kept hr
    · obtain rfl := List.inj_on_of_nodup_map hkey ha hqm (hid.trans hqid.symm)
      exact .linked hfresh hq hc
  | granted hid hq =>
    rcases List.mem_append.mp hr with hr | hr
    · exact .kept hr
    · rw [List.mem_singleton.mp hr]
      exact .granted hid hq
  | _ => exact .kept hr

theorem mem_revokeAll {l : List AccessRequest} {certificates : List Certificate} {c : Certificate}
    (h : c ∈ l.foldl (fun certificates r ↦ revokeLinked r.certificateId certificates)
      certificates) :
    c ∈ certificates ∨ ∃ q ∈ certificates, ∃ r ∈ l, truthy r.certificateId = some q.id ∧
      c = { q with status := .revoked } := by
  induction l generalizing certificates with
  | nil => exact .inl h
  | cons a l ih =>
    rcases ih h with h | ⟨q, hq, r, hr, hid, rfl⟩
    · rcases mem_revokeLinked h with h | ⟨q, hq, hid, rfl⟩
      · exact .inl h
      · exact .inr ⟨q, hq, a, List.mem_cons_self, hid, rfl⟩
    · rcases mem_revokeLinked hq with hq | ⟨q', hq', hid', rfl⟩
      · exact .inr ⟨q, hq, r, List.mem_cons_of_mem _ hr, hid, rfl⟩
      · exact .inr ⟨q', hq', a, List.mem_cons_self, hid', rfl⟩

theorem map_revokeAll {β : Type*} {g : Certificate → β} {l : List AccessRequest}
    {certificates : List Certificate}
    (hg : ∀ c : Certificate, g { c with status := .revoked } = g c) :
    (l.foldl (fun certificates r ↦ revokeLinked r.certificateId certificates) certificates).map g =
      certificates.map g := by
  induction l generalizing certificates with
  | nil => rfl
  | cons a l ih => rw [List.foldl_cons, ih, map_revokeLinked hg]

theorem step_certificates {c : Certificate} (h : step cfg w op = some w')
    (hc : c ∈ w'.certificates) : CertificateStep w op c := by
  cases step_effect h with
  | changed =>
    obtain ⟨q, hq, rfl⟩ := List.mem_map.mp hc
    exact .detached hq
  | revoked _ hq _ =>
    rcases mem_revokeLinked hc with hc | ⟨c', hc', hid, rfl⟩
    · exact .kept hc
    · exact .revoked (findToRevoke_spec hq).1 hid hc' (.inl ⟨_, rfl, hq⟩)
  | expired =>
    rcases mem_revokeAll hc with hc | ⟨c', hc', q, hq, hid, rfl⟩
    · exact .kept hc
    · exact .revoked (List.mem_of_mem_filter hq) hid hc' (.inr ⟨rfl, (List.mem_filter.mp hq).2⟩)
  | issued _ hfresh _ hq hcert =>
    rcases List.mem_append.mp hc with hc | hc
    · exact .kept hc
    · rw [List.mem_singleton.mp hc]
      exact .issued hfresh hq hcert
  | _ => exact .kept hc

/-! ## Keys -/

/-- Keys are keys, and were drawn. -/
structure Keyed (w : World) : Prop where
  requests : (w.accessRequests.map AccessRequest.id).Nodup
  drawn : ∀ r ∈ w.accessRequests, r.id ∈ w.drawn
  certificates : (w.certificates.map Certificate.id).Nodup
  serials : (w.certificates.map Certificate.serial).Nodup
  drawnCertificates : ∀ c ∈ w.certificates, c.id ∈ w.drawn ∧ c.id ≠ ""

theorem Initial.keyed (h : Initial w) : Keyed w := by
  constructor <;> simp [h.accessRequests, h.certificates]

theorem drawn_step (h : step cfg w op = some w') : ∀ id ∈ w.drawn, id ∈ w'.drawn := by
  intro id hid
  cases step_effect h with
  | submitted | issued | granted => exact List.mem_cons_of_mem _ hid
  | started hd => exact hd id hid
  | _ => exact hid

theorem Granted.id {crypto : Crypto} {id : Id} {params : VerifyBreakGlassParams}
    (h : Granted crypto w id params r) : r.id = id := by
  obtain ⟨payload, invoker, server, policy, -, rfl⟩ := h
  rfl

theorem step_requestKeys (h : step cfg w op = some w') :
    ((w'.accessRequests.map AccessRequest.id).Sublist (w.accessRequests.map AccessRequest.id)) ∨
      ∃ id ∉ w.drawn, w'.accessRequests.map AccessRequest.id =
        w.accessRequests.map AccessRequest.id ++ [id] ∧ id ∈ w'.drawn := by
  have same : w'.accessRequests.map AccessRequest.id = w.accessRequests.map AccessRequest.id →
      (w'.accessRequests.map AccessRequest.id).Sublist (w.accessRequests.map AccessRequest.id) :=
    fun he ↦ he ▸ List.Sublist.refl _
  cases step_effect h with
  | changed =>
    refine .inl ?_
    simp only [changeOrg, List.map_map]
    exact List.filter_sublist.map _
  | submitted hid hq => exact .inr ⟨_, hid, by simp [submit_id hq], List.mem_cons_self⟩
  | reviewed _ _ hq' => exact .inl (same (map_modify fun a _ ha ↦ (reviewRow_id hq').trans ha.symm))
  | revoked | issued => exact .inl (same (map_modify fun _ _ _ ↦ rfl))
  | expired | stale =>
    refine .inl (same ?_)
    simp only [markExpired, markPendingExpired, List.map_map]
    refine List.map_congr_left fun r _ ↦ ?_
    simp only [Function.comp_apply]
    split <;> rfl
  | granted hid hq => exact .inr ⟨_, hid, by simp [hq.id], List.mem_cons_self⟩
  | _ => exact .inl (same rfl)

theorem step_certificateKeys {β : Type*} {g : Certificate → β}
    (hrev : ∀ c : Certificate, g { c with status := .revoked } = g c)
    (hdet : ∀ db c, g (detachCertificate db c) = g c) (h : step cfg w op = some w') :
    w'.certificates.map g = w.certificates.map g ∨
      ∃ c, c.id ≠ "" ∧ c.id ∉ w.drawn ∧ c.serial ∉ w.certificates.map Certificate.serial ∧
        w'.certificates = w.certificates ++ [c] ∧ c.id ∈ w'.drawn := by
  cases step_effect h with
  | changed =>
    refine .inl ?_
    simp only [changeOrg, List.map_map]
    exact List.map_congr_left fun c _ ↦ hdet _ c
  | revoked => exact .inl (map_revokeLinked hrev)
  | expired => exact .inl (map_revokeAll hrev)
  | issued hne hid hserial hr hc =>
    exact .inr ⟨_, hne, hid, hserial, rfl, List.mem_cons_self⟩
  | _ => exact .inl rfl

theorem Keyed.step (hk : Keyed w) (h : World.step cfg w op = some w') : Keyed w' := by
  have hdrawn := drawn_step h
  refine ⟨?_, ?_, ?_, ?_, ?_⟩
  · rcases step_requestKeys h with hsub | ⟨id, hid, hids, -⟩
    · exact hsub.nodup hk.requests
    · rw [hids, List.nodup_append]
      refine ⟨hk.requests, by simp, fun x hx y hy hxy ↦ hid ?_⟩
      obtain ⟨r, hr, rfl⟩ := List.mem_map.mp hx
      rw [← List.mem_singleton.mp hy, ← hxy]
      exact hk.drawn r hr
  · intro r hr
    have hid := List.mem_map_of_mem (f := AccessRequest.id) hr
    rcases step_requestKeys h with hsub | ⟨id, -, hids, hnew⟩
    · obtain ⟨q, hq, he⟩ := List.mem_map.mp (hsub.subset hid)
      exact he ▸ hdrawn _ (hk.drawn q hq)
    · rw [hids] at hid
      rcases List.mem_append.mp hid with hid | hid
      · obtain ⟨q, hq, he⟩ := List.mem_map.mp hid
        exact he ▸ hdrawn _ (hk.drawn q hq)
      · exact List.mem_singleton.mp hid ▸ hnew
  · rcases step_certificateKeys (g := Certificate.id) (fun _ ↦ rfl) (fun _ _ ↦ rfl) h with
      hsame | ⟨c, -, hfresh, -, hcerts, -⟩
    · exact hsame ▸ hk.certificates
    · rw [hcerts, List.map_append, List.nodup_append]
      refine ⟨hk.certificates, by simp, fun x hx y hy hxy ↦ hfresh ?_⟩
      obtain ⟨c', hc', rfl⟩ := List.mem_map.mp hx
      rw [← show y = c.id by simpa using hy, ← hxy]
      exact (hk.drawnCertificates c' hc').1
  · rcases step_certificateKeys (g := Certificate.serial) (fun _ ↦ rfl) (fun _ _ ↦ rfl) h with
      hsame | ⟨c, -, -, hfresh, hcerts, -⟩
    · exact hsame ▸ hk.serials
    · rw [hcerts, List.map_append, List.nodup_append]
      refine ⟨hk.serials, by simp, fun x hx y hy hxy ↦ hfresh ?_⟩
      rw [← show y = c.serial by simpa using hy, ← hxy]
      exact hx
  · intro c hc
    rcases step_certificateKeys (g := Certificate.id) (fun _ ↦ rfl) (fun _ _ ↦ rfl) h with
      hsame | ⟨c', hne, -, -, hcerts, hnew⟩
    · have hid := List.mem_map_of_mem (f := Certificate.id) hc
      rw [hsame] at hid
      obtain ⟨q, hq, he⟩ := List.mem_map.mp hid
      exact he ▸ ⟨hdrawn _ (hk.drawnCertificates q hq).1, (hk.drawnCertificates q hq).2⟩
    · rw [hcerts] at hc
      rcases List.mem_append.mp hc with hc | hc
      · exact ⟨hdrawn _ (hk.drawnCertificates c hc).1, (hk.drawnCertificates c hc).2⟩
      · rw [List.mem_singleton.mp hc]
        exact ⟨hnew, hne⟩

theorem Keyed.run {es : List Op} {ok : World → Op → World → Prop} (hk : Keyed w)
    (hr : Run (World.step cfg) ok w es w') : Keyed w' :=
  hr.invariant hk fun _ _ _ hk hs _ ↦ hk.step hs

end

end World

end Shellius
