import Shellius.Auth.SecondFactor
import Shellius.Lib.Expiring
import Shellius.Lib.History
import Shellius.Lib.Pool
import Shellius.Sso.Reconcile

/-!
# Links that a person confirms

A sign-in that matched an account by its e-mail, but may not be linked silently, leaves a
pending link in Redis under the hash of a random token.  `confirmPendingLink` takes the
password of the account, and then a second factor where there is one; `approvePendingLink` is
what the mailed link opens; `cancelPendingLink` burns the token.  Whoever links deletes the
record first, and goes on only if it was there.

Each call is a sequence of round trips to Redis and to the database.  Two of them write
without looking: the attempts are counted under a key of their own, and the record is written
back once the password was right.  Neither notices that the token has been burned meanwhile.

Tokens are known by their hashes, which is all that the service keeps of them.  The rows of
users, identities and providers change in any way between two steps; that includes what
`recordFailedLogin` and `resetFailedLogin` do to the lockout of an account.
-/

namespace Shellius.Sso.PendingLinks

open Lib

/-! ## Tables -/

/-- `PENDING_LINK_TTL_SEC`, in milliseconds. -/
def pendingLinkTtl : Millis := 10 * 60 * 1000

/-- `APPROVAL_LINK_TTL_SEC`, in milliseconds. -/
def approvalLinkTtl : Millis := 30 * 60 * 1000

/-- `MAX_CONFIRM_ATTEMPTS` -/
def maxConfirmAttempts : Nat := 5

/-- `User`, with the columns of the password form. -/
structure Member extends Account where
  lockedUntil : Option Millis := none
  mfaBackupCodes : List String := []

/-- `availableMethods` -/
def methods (user : Member) : List String :=
  (availableMethods user.toUser).map FactorMethod.key ++
    if user.mfaBackupCodes = [] then [] else ["backup"]

structure Pending extends PendingLink where
  passwordVerified : Bool := false

/-- How long a link may be confirmed. -/
def ttl : LinkMode → Millis
  | .password => pendingLinkTtl
  | .emailApproval => approvalLinkTtl

structure Tables where
  users : Keyed (fun u : Member ↦ u.id) := .empty
  identities : Keyed UserIdentity.key := .empty
  ssoConfigs : Keyed SsoConfig.id := .empty

/-- What has become of a token. -/
inductive Note
  | issued (token : String) (mode : LinkMode) (deadline : Millis)
  | found (token : String) (time : Millis)
  | counted (token : String) (call n : Nat)
  | /-- A password was compared, of an account with or without a second factor. -/
    passwordChecked (token : String) (n : Nat) (enrolled ok : Bool)
  | codeChecked (token : String) (n : Nat) (ok : Bool)
  | burned (token : String) (call : Nat) (time : Millis) (won : Bool)
  | linked (token : String) (method : String)

/-- Redis, the database and the clock. -/
structure Store extends Tables where
  now : Millis
  links : Expiring String Pending Millis := fun _ ↦ none
  attempts : Expiring String Nat Millis := fun _ ↦ none
  log : List Note := []

/-! ## The program -/

/-- What is typed into the form. -/
inductive Answer
  | password (text : String)
  | code (method text : String)

/-- The operations called on a token; `createPendingLink` consumes it when the mail was not
sent. -/
inductive Operation
  | confirmPendingLink (answer : Answer)
  | approvePendingLink
  | cancelPendingLink
  | consumePending

/-- A link to be made: the record, and how it was confirmed. -/
structure Link where
  pending : Pending
  method : String

inductive Action
  | /-- `confirmPendingLink` reads the record. -/
    readConfirm (answer : Answer)
  | /-- `approvePendingLink` reads the record. -/
    readApprove
  | /-- `cancelPendingLink` reads the record. -/
    readCancel
  | /-- `loadLinkUser`, with an answer or from the mailed link. -/
    loadUser (pending : Pending) (answer : Option Answer)
  | /-- The counter of `countAttempt` goes up. -/
    count (pending : Pending) (user : Member) (answer : Answer)
  | expire (pending : Pending) (user : Member) (answer : Answer)
  | compare (pending : Pending) (user : Member) (n : Nat) (text : String)
  | /-- `writePending` -/
    write (pending : Pending)
  | /-- `isUserThrottled` -/
    throttle (pending : Pending) (user : Member) (n : Nat) (method : String)
  | /-- `verifyFactor` -/
    verify (pending : Pending) (n : Nat)
  | /-- `consumePending` deletes the record, for a link or to burn the token. -/
    consume (link : Option Link)
  | clear (link : Option Link)
  | /-- `finalizePendingLink` finds the provider. -/
    findConfig (link : Link)
  | /-- `linkIdentityToUser` finds the identity of the subject. -/
    findIdentity (link : Link)
  | findSameProvider (link : Link)
  | findUser (link : Link)
  | create (link : Link) (user : Member)
  | updateUser (link : Link) (user : Member)

structure Call where
  token : String
  action : Action

/-- What a step gets from outside: the answers of `isUserThrottled` and `verifyFactor`, and the
key of a new row. -/
structure Outside where
  throttled : Bool := false
  factorOk : Bool := false
  identityId : Id := ""

inductive Change
  | /-- `storePendingLink`, under a random token that nobody has used. -/
    store (token : String) (link : PendingLink)
  | time (now : Millis)
  | tables (tables : Tables)

namespace Store

variable (s : Store)

def readPending (token : String) : Option Pending := s.links.get s.now token

/-- The user of a record, unless the account is disabled. -/
def loadLinkUser (pending : Pending) : Option Member :=
  (s.users.find pending.userId).filter fun u ↦
    u.orgId = pending.orgId ∧ u.status ∉ disabledStatuses

def newIdentity (link : Link) (id : Id) : UserIdentity where
  id
  orgId := link.pending.orgId
  userId := link.pending.userId
  ssoConfigId := link.pending.ssoConfigId
  provider := link.pending.provider
  subject := link.pending.subject
  externalId := truthy link.pending.externalId
  email := truthy (some link.pending.email)
  lastLoginAt := some s.now

end Store

def linkedRow (link : Link) (user row : Member) : Member :=
  { row with
    name := if user.name = "" then (truthy link.pending.name).getD user.name else user.name
    avatarUrl := (truthy user.avatarUrl).or (truthy link.pending.picture)
    ssoProvider := (truthy user.ssoProvider).or (some link.pending.provider)
    ssoSub := (truthy user.ssoSub).or (some link.pending.subject)
    status :=
      if user.status ∈ [.invited, .pendingVerification] then .active else row.status }

def Tables.updateUser (t : Tables) (link : Link) (user : Member) : Tables :=
  { t with
    users := t.users.update
      (fun row ↦ if row.id = link.pending.userId then linkedRow link user row else row) (by
        intro row
        split <;> rfl) }

section

variable (compare : String → String → Bool)

def passwordOk (user : Member) (text : String) : Bool :=
  (truthy user.passwordHash).any fun hash ↦ compare text hash

/-- What is done with an attempt of the number: the sixth burns the token. -/
def judge (pending : Pending) (user : Member) (n : Nat) (answer : Answer) : Action :=
  if maxConfirmAttempts < n then .consume none
  else match answer with
    | .password text => .compare pending user n text
    | .code method _ => .throttle pending user n method

/-- What a step writes into the history. -/
def note (s : Store) (i : Nat) (k : Call) (out : Outside) : Option Note :=
  match k.action with
  | .readConfirm _ | .readApprove | .readCancel =>
    (s.readPending k.token).map fun _ ↦ .found k.token s.now
  | .count .. => some (.counted k.token i (s.attempts.incr s.now k.token).1)
  | .compare _ user n text =>
    some (.passwordChecked k.token n (methods user ≠ []) (passwordOk compare user text))
  | .verify _ n => some (.codeChecked k.token n out.factorOk)
  | .consume _ => some (.burned k.token i s.now (s.readPending k.token).isSome)
  | .create link _ =>
    (s.identities.insert? (s.newIdentity link out.identityId)).map fun _ ↦
      .linked k.token link.method
  | _ => none

def write (s : Store) (k : Call) (out : Outside) : Store :=
  match k.action with
  | .count .. => { s with attempts := (s.attempts.incr s.now k.token).2 }
  | .expire .. => { s with attempts := s.attempts.expire s.now k.token (s.now + pendingLinkTtl) }
  | .write pending =>
    -- `KEEPTTL` keeps the deadline of a key that is there, and a new key has none
    let kept := (s.links k.token).bind fun e ↦ if e.live s.now then e.expiresAt else none
    { s with links := s.links.set k.token { pending with passwordVerified := true } kept }
  | .consume _ => { s with links := s.links.del k.token }
  | .clear _ => { s with attempts := s.attempts.del k.token }
  | .create link _ =>
    match s.identities.insert? (s.newIdentity link out.identityId) with
    | some identities => { s with identities }
    | none => s
  | .updateUser link user => { s with toTables := s.toTables.updateUser link user }
  | _ => s

def effect (s : Store) (i : Nat) (k : Call) (out : Outside) : Store :=
  { write s k out with log := (note compare s i k out).toList ++ s.log }

def next (s : Store) (token : String) (out : Outside) : Action → Option Action
  | .readConfirm answer =>
    ((s.readPending token).filter fun p ↦ p.mode = .password).map
      fun p ↦ .loadUser p (some answer)
  | .readApprove =>
    ((s.readPending token).filter fun p ↦ p.mode = .emailApproval).map fun p ↦ .loadUser p none
  | .readCancel => (s.readPending token).map fun _ ↦ .consume none
  | .loadUser pending answer =>
    (s.loadLinkUser pending).bind fun user ↦
      match answer with
      | some (.password text) =>
        if user.lockedUntil.any fun t ↦ s.now < t then none
        else some (.count pending user (.password text))
      | some (.code method text) =>
        if pending.passwordVerified then some (.count pending user (.code method text))
        else none
      | none => some (.consume (some ⟨pending, "email_approved"⟩))
  | .count pending user answer =>
    let n := (s.attempts.incr s.now token).1
    some (if n = 1 then .expire pending user answer else judge pending user n answer)
  | .expire pending user answer => some (judge pending user 1 answer)
  | .compare pending user _ text =>
    if passwordOk compare user text then
      if methods user ≠ [] then some (.write pending)
      else some (.consume (some ⟨pending, "confirmed"⟩))
    else none
  | .throttle pending user n method =>
    if out.throttled = false ∧ method ∈ methods user then some (.verify pending n) else none
  | .verify pending _ =>
    if out.factorOk then some (.consume (some ⟨pending, "confirmed"⟩)) else none
  | .consume link => some (.clear (link.filter fun _ ↦ (s.readPending token).isSome))
  | .clear link => link.map .findConfig
  | .findConfig link =>
    if ∃ c ∈ s.ssoConfigs.find link.pending.ssoConfigId,
        c.orgId = link.pending.orgId ∧ c.isActive = true then
      some (.findIdentity link)
    else none
  | .findIdentity link =>
    if (s.identities.find (link.pending.ssoConfigId, link.pending.subject)).isSome then none
    else some (.findSameProvider link)
  | .findSameProvider link =>
    if ∃ i ∈ s.identities.rows,
        i.userId = link.pending.userId ∧ i.ssoConfigId = link.pending.ssoConfigId then none
    else some (.findUser link)
  | .findUser link => (s.loadLinkUser link.pending).map fun user ↦ .create link user
  | .create link user =>
    (s.identities.insert? (s.newIdentity link out.identityId)).map fun _ ↦ .updateUser link user
  | .write _ | .updateUser .. => none

def Note.token : Note → String
  | .issued token .. | .found token _ | .counted token .. | .passwordChecked token ..
  | .codeChecked token .. | .burned token .. | .linked token _ => token

def change (s : Store) : Change → Option Store
  | .store token link =>
    if ∀ x ∈ s.log, x.token ≠ token then
      some { s with
        links := s.links.set token { toPendingLink := link } (some (s.now + ttl link.mode))
        log := .issued token link.mode (s.now + ttl link.mode) :: s.log }
    else none
  | .time now => if s.now ≤ now then some { s with now } else none
  | .tables tables => some { s with toTables := tables }

def start : Operation → Action
  | .confirmPendingLink answer => .readConfirm answer
  | .approvePendingLink => .readApprove
  | .cancelPendingLink => .readCancel
  | .consumePending => .consume none

def program : Program Store (String × Operation) Call Outside Change where
  start a := ⟨a.1, start a.2⟩
  act i s k out := some (effect compare s i k out,
    (next compare s k.token out k.action).map fun action ↦ ⟨k.token, action⟩)
  env := change

end

/-- The record is there when an attempt is counted on it or it is written back. -/
def timely (s : Store) (k : Call) : Bool :=
  match k.action with
  | .count .. | .write _ => (s.readPending k.token).isSome
  | _ => true

/-- The step is not overtaken. -/
def undisturbed (p : Pool Store Call) : Event (String × Operation) Outside Change → Bool
  | .act i _ => (p.calls i).all fun k ↦ timely p.store k
  | _ => true

/-- Runs in which nothing is counted or written back after the record was deleted. -/
def Undisturbed (p : Pool Store Call) (e : Event (String × Operation) Outside Change)
    (_ : Pool Store Call) : Prop := undisturbed p e = true

end Shellius.Sso.PendingLinks
