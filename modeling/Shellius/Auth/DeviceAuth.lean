import Shellius.Lib.OneTime
import Shellius.Lib.Pool
import Shellius.Lib.Table
import Shellius.Auth.SecondFactor

/-!
# Signing in from the terminal

`deviceAuthService.pollDeviceRequest`, `approveDeviceRequest` and
`denyDeviceRequest`, each database step on its own.  The terminal polls with its
device code until somebody who is signed in approves or denies the request under
the user code it shows, or the request expires.

The poll that finds the request approved signs the approver in, deletes the
request and returns the session.  Approving and denying both require the request
to be pending when they find it, and write without looking again.
-/

namespace Shellius.DeviceAuth

open Lib

/-- `DeviceAuthStatus` -/
inductive Status
  | pending | approved | denied | expired
deriving DecidableEq

/-- `DeviceAuthRequest` -/
structure Request where
  id : Id
  deviceCode : String
  userCode : String
  orgId : Id
  userId : Option Id := none
  status : Status := .pending
  interval : Int := 5
  expiresAt : Millis
  lastPollAt : Option Millis := none

/-- An approval took effect. -/
structure Approval where
  requestId : Id
  userId : Id
  time : Millis

/-- A poll returned a session. -/
structure Session where
  requestId : Id
  userId : Id
  expiresAt : Millis

structure Store where
  now : Millis
  users : List User
  requests : List Request := []
  drawnIds : List Id := []
  approvals : List Approval := []
  sessions : List Session := []
  /-- The requests a session was returned for, and those that were denied. -/
  log : List (Use Id) := []

inductive Operation
  | pollDeviceRequest (deviceCode : String)
  | approveDeviceRequest (userCode : String) (userId : Id)
  | denyDeviceRequest (userCode : String) (userId : Id)

inductive Call
  | find (deviceCode : String)
  | markExpired (req : Request)
  | touch (req : Request) (now : Millis)
  | /-- The request was approved, and the poll finds the user who did. -/
    findUser (req : Request) (userId : Id)
  | /-- `issueSession` -/
    issueSession (req : Request) (user : User)
  | delete (req : Request) (user : User)
  | /-- `approveDeviceRequest` finds the request. -/
    approveFind (userCode : String) (userId : Id)
  | approveFindUser (req : Request) (userId : Id)
  | approve (req : Request) (userId : Id)
  | /-- `denyDeviceRequest` finds the request. -/
    denyFind (userCode : String) (userId : Id)
  | denyFindUser (req : Request) (userId : Id)
  | deny (req : Request) (userId : Id)

def start : Operation → Call
  | .pollDeviceRequest deviceCode => .find deviceCode
  | .approveDeviceRequest userCode userId => .approveFind userCode userId
  | .denyDeviceRequest userCode userId => .denyFind userCode userId

section

variable (crypto : Crypto) (s : Store)

def Refers (id userId : Id) : Prop :=
  (lookup Request.id id s.requests).isSome ∧ (lookup User.id userId s.users).isSome

instance (id userId : Id) : Decidable (Refers s id userId) := inferInstanceAs (Decidable (_ ∧ _))

def answer (status : Status) (userId : Id) (r : Request) : Request :=
  { r with status, userId := some userId }

/-- The store after a step of a call.  The update or the deletion of a row that is
gone throws, as does a reference to a user who is. -/
def effect : Call → Store
  | .markExpired req =>
    { s with requests := modify Request.id req.id (fun r ↦ { r with status := .expired }) s.requests }
  | .touch req now =>
    { s with
      requests := modify Request.id req.id (fun r ↦ { r with lastPollAt := some now }) s.requests }
  | .delete req user =>
    if (lookup Request.id req.id s.requests).isSome then
      { s with
        requests := s.requests.filter fun r ↦ r.id ≠ req.id
        sessions := ⟨req.id, user.id, req.expiresAt⟩ :: s.sessions
        log := .redeemed req.id :: s.log }
    else s
  | .approve req userId =>
    if Refers s req.id userId then
      { s with
        requests := modify Request.id req.id (answer .approved userId) s.requests
        approvals := ⟨req.id, userId, s.now⟩ :: s.approvals }
    else s
  | .deny req userId =>
    if Refers s req.id userId then
      { s with
        requests := modify Request.id req.id (answer .denied userId) s.requests
        log := .withdrawn [req.id] :: s.log }
    else s
  | _ => s

def findPending (userCode : String) : Option Request :=
  (lookup Request.userCode userCode s.requests).filter fun req ↦ req.status = .pending

def isOrgUser (req : Request) (userId : Id) : Bool :=
  (lookup User.id userId s.users).any fun user ↦ user.orgId = req.orgId

def next : Call → Option Call
  | .find deviceCode =>
    (lookup Request.deviceCode (crypto.sha256 deviceCode) s.requests).bind fun req ↦
      if req.status = .expired ∨ req.expiresAt < s.now then
        if req.status ≠ .expired then some (.markExpired req) else none
      else if req.lastPollAt.any fun t ↦ s.now - t < req.interval * 1000 then none
      else some (.touch req s.now)
  | .touch req _ =>
    if (lookup Request.id req.id s.requests).isSome ∧ req.status = .approved then
      req.userId.map (.findUser req)
    else none
  | .findUser req userId =>
    (lookup User.id userId s.users).bind fun user ↦
      if user.status = .active then some (.issueSession req user) else none
  | .issueSession req user =>
    -- the refresh token refers to the user
    if (lookup User.id user.id s.users).isSome then some (.delete req user) else none
  | .approveFind userCode userId =>
    (findPending s userCode).bind fun req ↦
      if req.expiresAt < s.now then none else some (.approveFindUser req userId)
  | .approveFindUser req userId =>
    if isOrgUser s req userId then some (.approve req userId) else none
  | .denyFind userCode userId => (findPending s userCode).map fun req ↦ .denyFindUser req userId
  | .denyFindUser req userId => if isOrgUser s req userId then some (.deny req userId) else none
  | .markExpired _ | .delete .. | .approve .. | .deny .. => none

inductive Change
  | tick (now : Millis)
  | users (users : List User)
  | /-- `createDeviceRequest` creates a pending request. -/
    create (id : Id) (deviceCode userCode : String) (orgId : Id) (expiresAt : Millis)
  | /-- `cleanupExpiredDeviceAuthRequests` -/
    cleanup

def setNull (users : List User) (r : Request) : Request :=
  { r with userId := r.userId.filter fun u ↦ (lookup User.id u users).isSome }

def newRequest (id : Id) (deviceCode userCode : String) (orgId : Id) (expiresAt : Millis) :
    Request where
  id
  deviceCode := crypto.sha256 deviceCode
  userCode
  orgId
  expiresAt

def program : Program Store Operation Call Unit Change where
  start
  act _ s k _ := some (effect s k, next crypto s k)
  env s
    | .tick now => if s.now ≤ now then some { s with now } else none
    | .users users => some { s with users, requests := s.requests.map (setNull users) }
    | .create id deviceCode userCode orgId expiresAt =>
      if id ∈ s.drawnIds then none
      else
        some { s with
          requests := s.requests ++ [newRequest crypto id deviceCode userCode orgId expiresAt]
          drawnIds := id :: s.drawnIds }
    | .cleanup => some { s with requests := s.requests.filter fun r ↦ ¬ r.expiresAt < s.now }

end

/-- The request a poll has found approved and is going to return a session for. -/
def Call.claimed : Call → Option Id
  | .touch req _ => if req.status = .approved then some req.id else none
  | .findUser req _ | .issueSession req _ | .delete req _ => some req.id
  | _ => none

/-- The request is denied, and has not expired yet. -/
def isDenied (s : Store) (id : Id) : Bool :=
  s.requests.any fun r ↦ r.id = id ∧ r.status = .denied ∧ s.now ≤ r.expiresAt

/-- An answer does not come too late: nobody approves a request that has been
denied since, or denies one that a poll has found approved. -/
def Undisturbed (p : Pool Store Call) : Event Operation Unit Change → Pool Store Call → Prop
  | .act i _, _ =>
    (∀ req userId, p.calls i = some (.approve req userId) → isDenied p.store req.id = false) ∧
      ∀ req userId, p.calls i = some (.deny req userId) →
        ∀ j k, p.calls j = some k → k.claimed ≠ some req.id
  | _, _ => True

section

variable {crypto : Crypto} {s s' : Store} {k l : Call} {r r' : Request} {id userId : Id} {i : Nat}
  {now : Millis}

/-! ## What a step does to a request -/

/-- What the step `k` makes of the request `r`. -/
inductive Becomes (s : Store) (k : Call) (r r' : Request) : Prop
  | same (status : r'.status = r.status) (userId : r'.userId = r.userId)
  | expired (req : Request) (call : k = .markExpired req) (key : r.id = req.id)
      (status : r'.status = .expired)
  | approved (req : Request) (userId : Id) (call : k = .approve req userId) (key : r.id = req.id)
      (status : r'.status = .approved) (user : r'.userId = some userId)
      (approval : ⟨req.id, userId, s.now⟩ ∈ (effect s k).approvals)
  | denied (req : Request) (userId : Id) (call : k = .deny req userId) (key : r.id = req.id)
      (status : r'.status = .denied)

theorem mem_effect (h : r' ∈ (effect s k).requests) :
    ∃ r ∈ s.requests, r'.id = r.id ∧ r'.expiresAt = r.expiresAt ∧ Becomes s k r r' := by
  cases k with
  | markExpired req =>
    rcases mem_modify.mp h with ⟨h, -⟩ | ⟨r, hr, hk, rfl⟩
    · exact ⟨r', h, rfl, rfl, .same rfl rfl⟩
    · exact ⟨r, hr, rfl, rfl, .expired req rfl hk rfl⟩
  | touch req now =>
    rcases mem_modify.mp h with ⟨h, -⟩ | ⟨r, hr, -, rfl⟩
    · exact ⟨r', h, rfl, rfl, .same rfl rfl⟩
    · exact ⟨r, hr, rfl, rfl, .same rfl rfl⟩
  | delete req user =>
    simp only [effect] at h
    split at h
    · exact ⟨r', List.mem_of_mem_filter h, rfl, rfl, .same rfl rfl⟩
    · exact ⟨r', h, rfl, rfl, .same rfl rfl⟩
  | approve req userId =>
    simp only [effect] at h
    split at h
    · rename_i href
      rcases mem_modify.mp h with ⟨h, -⟩ | ⟨r, hr, hk, rfl⟩
      · exact ⟨r', h, rfl, rfl, .same rfl rfl⟩
      · refine ⟨r, hr, rfl, rfl, .approved req userId rfl hk rfl rfl ?_⟩
        simp only [effect, if_pos href]
        exact List.mem_cons_self
    · exact ⟨r', h, rfl, rfl, .same rfl rfl⟩
  | deny req userId =>
    simp only [effect] at h
    split at h
    · rcases mem_modify.mp h with ⟨h, -⟩ | ⟨r, hr, hk, rfl⟩
      · exact ⟨r', h, rfl, rfl, .same rfl rfl⟩
      · exact ⟨r, hr, rfl, rfl, .denied req userId rfl hk rfl⟩
    · exact ⟨r', h, rfl, rfl, .same rfl rfl⟩
  | _ => exact ⟨r', h, rfl, rfl, .same rfl rfl⟩

theorem keys_effect : ((effect s k).requests.map Request.id).Sublist (s.requests.map Request.id) := by
  cases k with
  | markExpired | touch =>
    simp only [effect]
    rw [map_modify]
    exact fun _ _ _ ↦ rfl
  | approve | deny =>
    simp only [effect]
    split
    · rw [map_modify]
      exact fun _ _ _ ↦ rfl
    · exact List.Sublist.refl _
  | delete =>
    simp only [effect]
    split
    · exact List.filter_sublist.map _
    · exact List.Sublist.refl _
  | _ => exact List.Sublist.refl _

theorem exists_of_lookup (h : (lookup Request.id id s.requests).isSome) :
    ∃ r ∈ s.requests, r.id = id := by
  obtain ⟨r, hr⟩ := Option.isSome_iff_exists.mp h
  exact ⟨r, lookup_spec hr⟩

theorem log_effect : (effect s k).log = s.log ∨
    (∃ req user, k = .delete req user ∧ (∃ r ∈ s.requests, r.id = req.id) ∧
      (effect s k).log = .redeemed req.id :: s.log ∧
      ∀ r ∈ (effect s k).requests, r.id ≠ req.id) ∨
    ∃ req userId, k = .deny req userId ∧ (∃ r ∈ s.requests, r.id = req.id) ∧
      (effect s k).log = .withdrawn [req.id] :: s.log ∧
      ∀ r ∈ (effect s k).requests, r.id = req.id → r.status = .denied := by
  cases k with
  | delete req user =>
    by_cases hrow : (lookup Request.id req.id s.requests).isSome
    · refine .inr (.inl ⟨req, user, rfl, exists_of_lookup hrow, ?_, ?_⟩)
      · simp only [effect, if_pos hrow]
      · intro r hr
        simp only [effect, if_pos hrow] at hr
        exact of_decide_eq_true (List.mem_filter.mp hr).2
    · exact .inl (by simp only [effect, if_neg hrow])
  | deny req userId =>
    by_cases href : Refers s req.id userId
    · refine .inr (.inr ⟨req, userId, rfl, exists_of_lookup href.1, ?_, ?_⟩)
      · simp only [effect, if_pos href]
      · intro r hr he
        simp only [effect, if_pos href] at hr
        rcases mem_modify.mp hr with ⟨-, hne⟩ | ⟨r₀, -, -, rfl⟩
        · exact absurd he hne
        · rfl
    · exact .inl (by simp only [effect, if_neg href])
  | approve req userId =>
    simp only [effect]
    split <;> exact .inl rfl
  | _ => exact .inl rfl

@[simp] theorem effect_now : (effect s k).now = s.now := by
  cases k with
  | delete | approve | deny => simp only [effect]; split <;> rfl
  | _ => rfl

@[simp] theorem effect_drawnIds : (effect s k).drawnIds = s.drawnIds := by
  cases k with
  | delete | approve | deny => simp only [effect]; split <;> rfl
  | _ => rfl

theorem approvals_subset_effect : s.approvals ⊆ (effect s k).approvals := by
  cases k with
  | approve req userId =>
    simp only [effect]
    split
    · exact List.subset_cons_self _ _
    · exact List.Subset.refl _
  | delete | deny =>
    simp only [effect]
    split <;> exact List.Subset.refl _
  | _ => exact List.Subset.refl _

theorem mem_sessions_effect {c : Session} (h : c ∈ (effect s k).sessions) :
    c ∈ s.sessions ∨ ∃ req user, k = .delete req user ∧ c = ⟨req.id, user.id, req.expiresAt⟩ := by
  cases k with
  | delete req user =>
    simp only [effect] at h
    split at h
    · rcases List.mem_cons.mp h with rfl | h
      · exact .inr ⟨req, user, rfl, rfl⟩
      · exact .inl h
    · exact .inl h
  | approve | deny =>
    simp only [effect] at h
    split at h <;> exact .inl h
  | _ => exact .inl h

/-! ## What holds in every run -/

/-- The user approved the request no later than `t`. -/
def ApprovedBy (s : Store) (id userId : Id) (t : Millis) : Prop :=
  ∃ a ∈ s.approvals, a.requestId = id ∧ a.userId = userId ∧ a.time ≤ t

theorem ApprovedBy.mono {t : Millis} (h : ApprovedBy s id userId t)
    (hsub : s.approvals ⊆ s'.approvals) : ApprovedBy s' id userId t := by
  obtain ⟨a, ha, h⟩ := h
  exact ⟨a, hsub ha, h⟩

structure Inv (s : Store) : Prop where
  /-- `id` is a primary key. -/
  key : (s.requests.map Request.id).Nodup
  ids : ∀ r ∈ s.requests, r.id ∈ s.drawnIds
  /-- So is every key in the history. -/
  drawnIds : ∀ id, Spent s.log id → id ∈ s.drawnIds
  gone : ∀ r ∈ s.requests, .redeemed r.id ∉ s.log
  /-- A request that is approved, and has not expired, was approved in time. -/
  approved : ∀ r ∈ s.requests, r.status = .approved → ∀ u, r.userId = some u → s.now ≤ r.expiresAt →
    ApprovedBy s r.id u r.expiresAt
  /-- So was every request for which a session was returned. -/
  sessions : ∀ c ∈ s.sessions, ApprovedBy s c.requestId c.userId c.expiresAt
  atMostOnce : ∀ id, s.log.count (.redeemed id) ≤ 1

/-- The poll that is going to return a session found its request approved in time. -/
def Assert (s : Store) (_ : Nat) : Call → Prop
  | .touch req _ => req.status = .approved → ∀ u, req.userId = some u →
      ApprovedBy s req.id u req.expiresAt
  | .findUser req userId => ApprovedBy s req.id userId req.expiresAt
  | .issueSession req user | .delete req user => ApprovedBy s req.id user.id req.expiresAt
  | _ => True

theorem Assert.mono (h : Assert s i k) (hsub : s.approvals ⊆ s'.approvals) : Assert s' i k := by
  cases k with
  | touch => exact fun hst u hu ↦ (h hst u hu).mono hsub
  | findUser | issueSession | delete => exact ApprovedBy.mono h hsub
  | _ => trivial

theorem assert_next (hI : Inv s) (h : Assert s i k) (hn : next crypto s k = some l) :
    Assert s i l := by
  cases k with
  | find deviceCode =>
    obtain ⟨req, hreq, hn⟩ := Option.bind_eq_some_iff.mp hn
    split at hn
    · split at hn
      · obtain rfl := Option.some.inj hn
        trivial
      · cases hn
    · rename_i hlive
      split at hn
      · cases hn
      · obtain rfl := Option.some.inj hn
        intro hst u hu
        have hle : s.now ≤ req.expiresAt := Int.not_lt.mp fun hlt ↦ hlive (.inr hlt)
        exact hI.approved req (lookup_spec hreq).1 hst u hu hle
  | touch req now =>
    simp only [next] at hn
    split at hn
    · rename_i hst
      obtain ⟨u, hu, rfl⟩ := Option.map_eq_some_iff.mp hn
      exact h hst.2 u hu
    · cases hn
  | findUser req userId =>
    obtain ⟨user, huser, hn⟩ := Option.bind_eq_some_iff.mp hn
    split at hn
    · obtain rfl := Option.some.inj hn
      obtain ⟨-, rfl⟩ := lookup_spec huser
      exact h
    · cases hn
  | issueSession req user =>
    simp only [next] at hn
    split at hn
    · obtain rfl := Option.some.inj hn
      exact h
    · cases hn
  | approveFind userCode userId =>
    obtain ⟨req, -, hn⟩ := Option.bind_eq_some_iff.mp hn
    split at hn
    · cases hn
    · obtain rfl := Option.some.inj hn
      trivial
  | approveFindUser req userId | denyFindUser req userId =>
    simp only [next] at hn
    split at hn
    · obtain rfl := Option.some.inj hn
      trivial
    · cases hn
  | denyFind userCode userId =>
    obtain ⟨req, -, rfl⟩ := Option.map_eq_some_iff.mp hn
    trivial
  | _ => cases hn

theorem Inv.effect (h : Inv s) (ha : Assert s i k) : Inv (effect s k) where
  key := keys_effect.nodup h.key
  ids r' hr' := by
    obtain ⟨r, hr, hid, -, -⟩ := mem_effect hr'
    rw [hid, effect_drawnIds]
    exact h.ids r hr
  drawnIds id hs := by
    rw [effect_drawnIds]
    rcases log_effect (s := s) (k := k) with hlog | ⟨req, -, -, ⟨r, hr, he⟩, hlog, -⟩ |
      ⟨req, -, -, ⟨r, hr, he⟩, hlog, -⟩
    · exact h.drawnIds id (hlog ▸ hs)
    · rw [hlog, spent_redeemed] at hs
      rcases hs with rfl | hs
      · exact he ▸ h.ids r hr
      · exact h.drawnIds id hs
    · rw [hlog, spent_withdrawn] at hs
      rcases hs with hmem | hs
      · obtain rfl := List.mem_singleton.mp hmem
        exact he ▸ h.ids r hr
      · exact h.drawnIds id hs
  gone r' hr' hmem := by
    obtain ⟨r, hr, hid, -, -⟩ := mem_effect hr'
    rw [hid] at hmem
    rcases log_effect (s := s) (k := k) with hlog | ⟨req, -, -, -, hlog, hgone⟩ |
      ⟨req, -, -, -, hlog, -⟩
    · exact h.gone r hr (hlog ▸ hmem)
    · rw [hlog, List.mem_cons] at hmem
      rcases hmem with he | hmem
      · exact hgone r' hr' (hid.trans (Use.redeemed.inj he))
      · exact h.gone r hr hmem
    · rw [hlog, List.mem_cons] at hmem
      rcases hmem with he | hmem
      · cases he
      · exact h.gone r hr hmem
  approved r' hr' hst u hu hle := by
    rw [effect_now] at hle
    obtain ⟨r, hr, hid, hexp, hbec⟩ := mem_effect hr'
    rw [hid, hexp]
    rw [hexp] at hle
    cases hbec with
    | same status userId =>
      exact (h.approved r hr (status ▸ hst) u (userId ▸ hu) hle).mono approvals_subset_effect
    | expired _ _ _ status => simp [status] at hst
    | approved req userId _ key _ user approval =>
      obtain rfl : userId = u := Option.some.inj (user.symm.trans hu)
      exact ⟨_, approval, key.symm, rfl, hle⟩
    | denied _ _ _ _ status => simp [status] at hst
  sessions c hc := by
    rcases mem_sessions_effect hc with hc | ⟨req, user, rfl, rfl⟩
    · exact (h.sessions c hc).mono approvals_subset_effect
    · exact ApprovedBy.mono ha approvals_subset_effect
  atMostOnce id := by
    rcases log_effect (s := s) (k := k) with hlog | ⟨req, -, -, ⟨r, hr, he⟩, hlog, -⟩ |
      ⟨req, -, -, -, hlog, -⟩
    · exact hlog ▸ h.atMostOnce id
    · rw [hlog, List.count_cons]
      by_cases hid : req.id = id
      · have hno : s.log.count (.redeemed id) = 0 :=
          List.count_eq_zero.mpr fun hmem ↦ h.gone r hr (by rwa [he, hid])
        simp [hno, hid]
      · have hne : (Use.redeemed req.id == Use.redeemed id) = false := by simpa using hid
        rw [hne]
        exact h.atMostOnce id
    · rw [hlog, List.count_cons]
      simpa using h.atMostOnce id

/-- What goes on around the calls: time passes, new requests are pending, and the
others keep their answers. -/
structure Around (s s' : Store) : Prop where
  now : s.now ≤ s'.now
  drawnIds : s.drawnIds ⊆ s'.drawnIds
  approvals : s.approvals ⊆ s'.approvals
  sessions : s'.sessions = s.sessions
  log : s'.log = s.log
  key : (s.requests.map Request.id).Nodup → (∀ r ∈ s.requests, r.id ∈ s.drawnIds) →
    (s'.requests.map Request.id).Nodup
  requests : ∀ r' ∈ s'.requests,
    (∃ r ∈ s.requests, r'.id = r.id ∧ r'.expiresAt = r.expiresAt ∧ r'.status = r.status ∧
      ∀ u, r'.userId = some u → r.userId = some u) ∨
    r'.id ∈ s'.drawnIds ∧ r'.id ∉ s.drawnIds ∧ r'.status = .pending

theorem around_env {d : Change} (h : (program crypto).env s d = some s') : Around s s' := by
  cases d with
  | tick now =>
    simp only [program] at h
    split at h
    · rename_i hle
      obtain rfl := Option.some.inj h
      exact ⟨hle, List.Subset.refl _, List.Subset.refl _, rfl, rfl, fun h _ ↦ h,
        fun r hr ↦ .inl ⟨r, hr, rfl, rfl, rfl, fun _ hu ↦ hu⟩⟩
    · cases h
  | users users =>
    obtain rfl := Option.some.inj h
    refine ⟨Int.le_refl _, List.Subset.refl _, List.Subset.refl _, rfl, rfl, fun h _ ↦ ?_,
      fun r' hr' ↦ .inl ?_⟩
    · rw [List.map_map]
      exact h
    · obtain ⟨r, hr, rfl⟩ := List.mem_map.mp hr'
      exact ⟨r, hr, rfl, rfl, rfl, fun u hu ↦ (Option.filter_eq_some_iff.mp hu).1⟩
  | create id deviceCode userCode orgId expiresAt =>
    simp only [program] at h
    split at h
    · cases h
    · rename_i hid
      obtain rfl := Option.some.inj h
      refine ⟨Int.le_refl _, List.subset_cons_self _ _, List.Subset.refl _, rfl, rfl,
        fun hkey hids ↦ ?_, fun r hr ↦ ?_⟩
      · rw [List.map_append, List.map_singleton]
        refine hkey.append (List.nodup_singleton _) fun j hj hj' ↦ hid ?_
        obtain ⟨r, hr, rfl⟩ := List.mem_map.mp hj
        have he : r.id = id := List.mem_singleton.mp hj'
        exact he ▸ hids r hr
      · rcases List.mem_append.mp hr with hr | hr
        · exact .inl ⟨r, hr, rfl, rfl, rfl, fun _ hu ↦ hu⟩
        · rw [List.mem_singleton.mp hr]
          exact .inr ⟨List.mem_cons_self, hid, rfl⟩
  | cleanup =>
    obtain rfl := Option.some.inj h
    exact ⟨Int.le_refl _, List.Subset.refl _, List.Subset.refl _, rfl, rfl,
      fun h _ ↦ (List.filter_sublist.map _).nodup h,
      fun r hr ↦ .inl ⟨r, List.mem_of_mem_filter hr, rfl, rfl, rfl, fun _ hu ↦ hu⟩⟩

theorem Inv.around (h : Inv s) (hs : Around s s') : Inv s' where
  key := hs.key h.key h.ids
  ids r' hr' := by
    rcases hs.requests r' hr' with ⟨r, hr, hid, -⟩ | ⟨hid, -⟩
    · exact hid ▸ hs.drawnIds (h.ids r hr)
    · exact hid
  drawnIds id hspent := hs.drawnIds (h.drawnIds id (hs.log ▸ hspent))
  gone r' hr' hmem := by
    rw [hs.log] at hmem
    rcases hs.requests r' hr' with ⟨r, hr, hid, -⟩ | ⟨-, hnew, -⟩
    · exact h.gone r hr (hid ▸ hmem)
    · exact hnew (h.drawnIds _ ⟨_, hmem, rfl⟩)
  approved r' hr' hst u hu hle := by
    rcases hs.requests r' hr' with ⟨r, hr, hid, hexp, hstatus, huser⟩ | ⟨-, -, hstatus⟩
    · rw [hid, hexp]
      have hbefore : s.now ≤ r.expiresAt := Int.le_trans hs.now (hexp ▸ hle)
      exact (h.approved r hr (hstatus ▸ hst) u (huser u hu) hbefore).mono hs.approvals
    · simp [hstatus] at hst
  sessions c hc := (h.sessions c (hs.sessions ▸ hc)).mono hs.approvals
  atMostOnce id := hs.log ▸ h.atMostOnce id

theorem program_keeps : (program crypto).Keeps free Inv Assert where
  spawn s i a _ := by cases a <;> trivial
  act p i k e s' k' hp hk hact _ := by
    obtain ⟨rfl, rfl⟩ := Prod.mk.inj (Option.some.inj hact)
    refine ⟨hp.1.effect (hp.2 i k hk), fun l hl ↦ ?_, fun j l _ hj ↦ ?_⟩
    · exact (assert_next hp.1 (hp.2 i k hk) hl).mono approvals_subset_effect
    · exact (hp.2 j l hj).mono approvals_subset_effect
  abort p i k hp _ := ⟨hp.1, fun j l _ hj ↦ hp.2 j l hj⟩
  env s d s' h henv :=
    have hs := around_env henv
    ⟨h.around hs, fun _ _ ha ↦ ha.mono hs.approvals⟩

/-! ## What holds when no answer comes too late -/

/-- A request that was denied stays so, unless it expires, and no session is returned
for it. -/
structure Settled (s : Store) : Prop where
  denied : ∀ r ∈ s.requests, Spent s.log r.id → r.status = .denied ∨ r.expiresAt < s.now
  oneTime : OneTime s.log

/-- The request a poll has claimed is not denied, and the one it is going to mark
as expired has. -/
structure Unanswered (s : Store) (k : Call) : Prop where
  claimed : ∀ id, k.claimed = some id →
    id ∈ s.drawnIds ∧ ∀ r ∈ s.requests, r.id = id → ¬ Spent s.log id
  expired : ∀ req, k = .markExpired req →
    req.id ∈ s.drawnIds ∧ ∀ r ∈ s.requests, r.id = req.id → r.expiresAt < s.now

theorem Unanswered.of_idle (hc : l.claimed = none) (he : ∀ req, l ≠ .markExpired req) :
    Unanswered s l :=
  ⟨fun id h ↦ by simp [hc] at h, fun req h ↦ absurd h (he req)⟩

/-- A poll claims a request that it finds approved and not expired, and marks one as
expired that has. -/
theorem unanswered_next (hI : Inv s) (hS : Settled s) (hU : Unanswered s k)
    (hn : next crypto s k = some l) : Unanswered s l := by
  cases k with
  | find deviceCode =>
    obtain ⟨req, hreq, hn⟩ := Option.bind_eq_some_iff.mp hn
    have hmem := (lookup_spec hreq).1
    split at hn
    · rename_i hexp
      split at hn
      · rename_i hst
        obtain rfl := Option.some.inj hn
        refine ⟨fun id hid ↦ (nomatch hid), fun req' he ↦ ?_⟩
        obtain rfl := Call.markExpired.inj he
        refine ⟨hI.ids req hmem, fun r hr hid ↦ ?_⟩
        rw [List.inj_on_of_nodup_map hI.key hr hmem hid]
        exact hexp.resolve_left hst
      · cases hn
    · rename_i hlive
      split at hn
      · cases hn
      · obtain rfl := Option.some.inj hn
        refine ⟨fun id hid ↦ ?_, fun req' he ↦ by cases he⟩
        simp only [Call.claimed] at hid
        split at hid
        · rename_i hst
          obtain rfl := Option.some.inj hid
          refine ⟨hI.ids req hmem, fun _ _ _ hspent ↦ ?_⟩
          rcases hS.denied req hmem hspent with hden | hlt
          · simp [hst] at hden
          · exact hlive (.inr hlt)
        · cases hid
  | touch req now =>
    simp only [next] at hn
    split at hn
    · rename_i hst
      obtain ⟨u, -, rfl⟩ := Option.map_eq_some_iff.mp hn
      refine ⟨fun id hid ↦ hU.claimed id ?_, fun req' he ↦ by cases he⟩
      simpa [Call.claimed, hst.2] using hid
    · cases hn
  | findUser req userId =>
    obtain ⟨user, -, hn⟩ := Option.bind_eq_some_iff.mp hn
    split at hn
    · obtain rfl := Option.some.inj hn
      exact ⟨hU.claimed, fun req' he ↦ by cases he⟩
    · cases hn
  | issueSession req user =>
    simp only [next] at hn
    split at hn
    · obtain rfl := Option.some.inj hn
      exact ⟨hU.claimed, fun req' he ↦ by cases he⟩
    · cases hn
  | approveFind userCode userId =>
    obtain ⟨req, -, hn⟩ := Option.bind_eq_some_iff.mp hn
    split at hn
    · cases hn
    · obtain rfl := Option.some.inj hn
      exact .of_idle rfl fun _ he ↦ by cases he
  | approveFindUser req userId | denyFindUser req userId =>
    simp only [next] at hn
    split at hn
    · obtain rfl := Option.some.inj hn
      exact .of_idle rfl fun _ he ↦ by cases he
    · cases hn
  | denyFind userCode userId =>
    obtain ⟨req, -, rfl⟩ := Option.map_eq_some_iff.mp hn
    exact .of_idle rfl fun _ he ↦ by cases he
  | _ => cases hn

/-- A step keeps what it leaves of the requests settled, unless it is an answer that
comes too late. -/
theorem Settled.effect (hS : Settled s) (hU : Unanswered s k)
    (hok : ∀ req userId, k = .approve req userId → isDenied s req.id = false) :
    Settled (effect s k) where
  denied r' hr' hspent := by
    rw [effect_now]
    obtain ⟨r, hr, hid, hexp, hbec⟩ := mem_effect hr'
    -- the request was spent before the step, or the step denies it
    have hbefore : Spent s.log r.id ∨ r'.status = .denied := by
      rw [hid] at hspent
      rcases log_effect (s := s) (k := k) with hlog | ⟨req, -, -, -, hlog, hgone⟩ |
        ⟨req, -, -, -, hlog, hden⟩
      · exact .inl (hlog ▸ hspent)
      · rw [hlog, spent_redeemed] at hspent
        rcases hspent with he | hspent
        · exact absurd (hid.trans he.symm) (hgone r' hr')
        · exact .inl hspent
      · rw [hlog, spent_withdrawn] at hspent
        rcases hspent with hmem | hspent
        · exact .inr (hden r' hr' (hid.trans (List.mem_singleton.mp hmem)))
        · exact .inl hspent
    rcases hbefore with hspent | hden
    · rw [hexp]
      have hsettled := hS.denied r hr hspent
      cases hbec with
      | same status => exact hsettled.imp_left status.trans
      | expired req call key _ => exact .inr ((hU.expired req call).2 r hr key)
      | approved req userId call key _ _ _ =>
        refine .inr (Int.not_le.mp fun hle ↦ ?_)
        have hden : r.status = .denied := hsettled.resolve_right (Int.not_lt.mpr hle)
        have hyes : isDenied s req.id = true :=
          List.any_eq_true.mpr ⟨r, hr, decide_eq_true ⟨key, hden, hle⟩⟩
        rw [hok req userId call] at hyes
        cases hyes
      | denied _ _ _ _ status => exact .inl status
    · exact .inl hden
  oneTime := by
    rcases log_effect (s := s) (k := k) with hlog | ⟨req, user, rfl, ⟨r, hr, he⟩, hlog, -⟩ |
      ⟨req, -, -, -, hlog, -⟩
    · exact hlog ▸ hS.oneTime
    · rw [hlog, oneTime_redeemed]
      exact ⟨(hU.claimed req.id rfl).2 r hr he, hS.oneTime⟩
    · rw [hlog, oneTime_withdrawn]
      exact hS.oneTime

theorem Unanswered.effect (hU : Unanswered s l)
    (hok : ∀ req userId, k = .deny req userId → l.claimed ≠ some req.id) :
    Unanswered (effect s k) l where
  claimed id hid := by
    obtain ⟨hdrawn, hno⟩ := hU.claimed id hid
    refine ⟨by rwa [effect_drawnIds], fun r' hr' he hspent ↦ ?_⟩
    obtain ⟨r, hr, hkey, -, -⟩ := mem_effect hr'
    rcases log_effect (s := s) (k := k) with hlog | ⟨req, -, -, -, hlog, hgone⟩ |
      ⟨req, userId, call, -, hlog, -⟩
    · exact hno r hr (hkey ▸ he) (hlog ▸ hspent)
    · rw [hlog, spent_redeemed] at hspent
      rcases hspent with rfl | hspent
      · exact hgone r' hr' he
      · exact hno r hr (hkey ▸ he) hspent
    · rw [hlog, spent_withdrawn] at hspent
      rcases hspent with hmem | hspent
      · exact hok req userId call (List.mem_singleton.mp hmem ▸ hid)
      · exact hno r hr (hkey ▸ he) hspent
  expired req he := by
    obtain ⟨hdrawn, hexp⟩ := hU.expired req he
    refine ⟨by rwa [effect_drawnIds], fun r' hr' hid ↦ ?_⟩
    obtain ⟨r, hr, hkey, hsame, -⟩ := mem_effect hr'
    rw [hsame, effect_now]
    exact hexp r hr (hkey ▸ hid)

theorem Settled.around (hI : Inv s) (hS : Settled s) (h : Around s s') : Settled s' where
  denied r' hr' hspent := by
    rw [h.log] at hspent
    rcases h.requests r' hr' with ⟨r, hr, hid, hexp, hst, -⟩ | ⟨-, hnew, -⟩
    · rw [hst, hexp]
      exact (hS.denied r hr (hid ▸ hspent)).imp_right fun hlt ↦ Int.lt_of_lt_of_le hlt h.now
    · exact absurd (hI.drawnIds _ hspent) hnew
  oneTime := h.log ▸ hS.oneTime

theorem Unanswered.around (hU : Unanswered s l) (h : Around s s') : Unanswered s' l where
  claimed id hid := by
    obtain ⟨hdrawn, hno⟩ := hU.claimed id hid
    refine ⟨h.drawnIds hdrawn, fun r' hr' he hspent ↦ ?_⟩
    rcases h.requests r' hr' with ⟨r, hr, hkey, -⟩ | ⟨-, hnew, -⟩
    · exact hno r hr (hkey ▸ he) (h.log ▸ hspent)
    · exact hnew (he ▸ hdrawn)
  expired req he := by
    obtain ⟨hdrawn, hexp⟩ := hU.expired req he
    refine ⟨h.drawnIds hdrawn, fun r' hr' hid ↦ ?_⟩
    rcases h.requests r' hr' with ⟨r, hr, hkey, hsame, -⟩ | ⟨-, hnew, -⟩
    · rw [hsame]
      exact Int.lt_of_lt_of_le (hexp r hr (hkey ▸ hid)) h.now
    · exact absurd (hid ▸ hdrawn) hnew

theorem program_keeps_settled : (program crypto).Keeps Undisturbed (fun s ↦ Inv s ∧ Settled s)
    fun s i k ↦ Assert s i k ∧ Unanswered s k where
  spawn s i a _ := by
    refine ⟨by cases a <;> trivial, ?_⟩
    cases a <;> exact .of_idle rfl fun _ he ↦ by cases he
  act p i k e s' k' hp hk hact hok := by
    obtain ⟨rfl, rfl⟩ := Prod.mk.inj (Option.some.inj hact)
    obtain ⟨hI, hS⟩ := hp.1
    obtain ⟨ha, hU⟩ := hp.2 i k hk
    have happrove : ∀ req userId, k = .approve req userId → isDenied p.store req.id = false :=
      fun req userId he ↦ hok.1 req userId (he ▸ hk)
    have hdeny : ∀ j l, p.calls j = some l → ∀ req userId, k = .deny req userId →
        l.claimed ≠ some req.id := fun j l hj req userId he ↦ hok.2 req userId (he ▸ hk) j l hj
    refine ⟨⟨hI.effect ha, hS.effect hU happrove⟩, fun l hl ↦ ⟨?_, ?_⟩, fun j l _ hj ↦ ⟨?_, ?_⟩⟩
    · exact (assert_next hI ha hl).mono approvals_subset_effect
    · refine (unanswered_next hI hS hU hl).effect fun req userId he ↦ ?_
      subst he
      cases hl
    · exact (hp.2 j l hj).1.mono approvals_subset_effect
    · exact (hp.2 j l hj).2.effect (hdeny j l hj)
  abort p i k hp _ := ⟨hp.1, fun j l _ hj ↦ hp.2 j l hj⟩
  env s d s' h henv :=
    have hs := around_env henv
    ⟨⟨h.1.around hs, h.2.around h.1 hs⟩, fun _ _ ha ↦ ⟨ha.1.mono hs.approvals, ha.2.around hs⟩⟩

end

/-! ## One session, and none after a denial -/

/-- What is promised of the sessions in any run: a request yields one at most, and
only if it was approved before it expired. -/
structure Earned (s : Store) : Prop where
  atMostOnce : ∀ id, s.log.count (.redeemed id) ≤ 1
  approved : ∀ c ∈ s.sessions, ApprovedBy s c.requestId c.userId c.expiresAt

/-- What is promised of a request: moreover none yields a session once it has been
denied. -/
structure Safe (s : Store) : Prop extends Earned s where
  neverAgain : OneTime s.log

/-- The tables before the first call: what requests there are, are pending. -/
structure Initial (s : Store) : Prop where
  key : (s.requests.map Request.id).Nodup
  ids : ∀ r ∈ s.requests, r.id ∈ s.drawnIds
  pending : ∀ r ∈ s.requests, r.status = .pending
  sessions : s.sessions = []
  log : s.log = []

section

variable {crypto : Crypto} {s : Store} {p : Pool Store Call}
  {es : List (Event Operation Unit Change)}

theorem Initial.inv (h : Initial s) : Inv s where
  key := h.key
  ids := h.ids
  drawnIds id hs := by simp [h.log] at hs
  gone r _ := by simp [h.log]
  approved r hr hst := by simp [h.pending r hr] at hst
  sessions c hc := by simp [h.sessions] at hc
  atMostOnce id := by simp [h.log]

theorem Initial.settled (h : Initial s) : Settled s where
  denied r _ hs := by simp [h.log] at hs
  oneTime := by simp [h.log]

theorem run_earned (h₀ : Initial s)
    (hr : Run (program crypto).step free (Program.idle Call s) es p) : Earned p.store := by
  have hp := program_keeps.run (Program.holds_idle h₀.inv) hr
  exact ⟨hp.1.atMostOnce, hp.1.sessions⟩

/-- **A request yields one session at most, after an approval in time and not after a
denial, in every run in which no answer comes too late.** -/
theorem run_safe (h₀ : Initial s)
    (hr : Run (program crypto).step Undisturbed (Program.idle Call s) es p) : Safe p.store where
  toEarned := run_earned h₀ hr.forget
  neverAgain := (program_keeps_settled.run (Program.holds_idle ⟨h₀.inv, h₀.settled⟩) hr).1.2.oneTime

end

def plain : Crypto := ⟨fun _ _ _ ↦ false, id⟩

def twoUsers : Store where
  now := 0
  users := [{ id := "ana", orgId := "org" }, { id := "ben", orgId := "org" }]

theorem twoUsers_initial : Initial twoUsers :=
  ⟨by simp [twoUsers], by simp [twoUsers], by simp [twoUsers], rfl, rfl⟩

def asks : Event Operation Unit Change := .env (.create "r1" "device" "ABCD2345" "org" 900000)

def anaApproves : List (Event Operation Unit Change) :=
  [asks, .spawn 0 (.approveDeviceRequest "ABCD2345" "ana"), .act 0 (), .act 0 (), .act 0 (),
    .env (.tick 5000), .spawn 0 (.pollDeviceRequest "device"), .act 0 (), .act 0 (), .act 0 (),
    .act 0 (), .act 0 ()]

def approvesPending (p : Pool Store Call) : Bool :=
  (p.calls 0).all fun k ↦
    match k with
    | .approve req _ => !isDenied p.store req.id
    | _ => true

theorem undisturbed_of_inFirst {p q : Pool Store Call} {e : Event Operation Unit Change}
    (hfree : ∀ j, j ≠ 0 → p.calls j = none) (h : approvesPending p = true) :
    Undisturbed p e q := by
  cases e with
  | act i _ =>
    refine ⟨fun req userId hk ↦ ?_, fun req userId hk j l hl ↦ ?_⟩
    · by_cases hi : i = 0
      · subst hi
        simpa [approvesPending, hk] using h
      · simp [hfree i hi] at hk
    · by_cases hi : i = 0
      · subst hi
        by_cases hj : j = 0
        · subst hj
          obtain rfl := Option.some.inj (hk.symm.trans hl)
          exact nofun
        · simp [hfree j hj] at hl
      · simp [hfree i hi] at hk
  | _ => trivial

theorem run_safe_ana : Initial twoUsers ∧ ∃ p : Pool Store Call,
    Safe p.store ∧ p.store.sessions = [⟨"r1", "ana", 900000⟩] := by
  have h : execIf (program plain).step (fun p e ↦ e.inFirst && approvesPending p)
      (Program.idle Call twoUsers) anaApproves = some _ := rfl
  have hrun : Run (program plain).step Undisturbed (Program.idle Call twoUsers) anaApproves _ :=
    (Program.run_of_inFirst h).mono fun _ _ _ hok ↦ undisturbed_of_inFirst hok.1 hok.2
  exact ⟨twoUsers_initial, _, run_safe twoUsers_initial hrun, rfl⟩

def benDenies : List (Event Operation Unit Change) :=
  [asks, .spawn 0 (.approveDeviceRequest "ABCD2345" "ana"), .act 0 (), .act 0 (),
    .spawn 1 (.denyDeviceRequest "ABCD2345" "ben"), .act 1 (), .act 1 (), .act 1 (),
    .env (.tick 1000), .act 0 (),
    .spawn 0 (.pollDeviceRequest "device"), .act 0 (), .act 0 (), .act 0 (), .act 0 (), .act 0 ()]

theorem session_after_denial : Initial twoUsers ∧ ∃ p : Pool Store Call,
    Run (program plain).step free (Program.idle Call twoUsers) benDenies p ∧
      p.store.log = [.redeemed "r1", .withdrawn ["r1"]] ∧ ¬ Safe p.store := by
  have h : exec (program plain).step (Program.idle Call twoUsers) benDenies = some _ := rfl
  refine ⟨twoUsers_initial, _, run_of_exec h, rfl, fun hsafe ↦ ?_⟩
  exact (oneTime_redeemed.mp hsafe.neverAgain).1 ⟨_, List.mem_cons_self, List.mem_cons_self⟩

end Shellius.DeviceAuth
