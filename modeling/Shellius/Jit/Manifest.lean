import Shellius.Access.Request
import Shellius.Jit.Uid
import Shellius.Policy.Rulings

/-!
# Provisioning manifests

`jitManifestService.buildManifest`: what a host is told to set up for the user
of an approved request.  The block it hands out is that of the organization's
first provisioning policy, whoever that policy names and whatever it targets;
`manifest_authorised_iff` says when a policy that does name the user and target
the server says the same.
-/

namespace Shellius

open Lib

/-- What `buildManifest` returns. -/
structure Manifest where
  linuxUser : String
  uid : Nat
  groups : List String
  «sudo» : Bool
  aclReadPaths : List String
  aclRecursive : Bool
  hardCutoff : Bool
  leaseId : Id
  ttlSeconds : Int

/-- The first policy of an organization, by priority, that provisions anything. -/
def manifestPolicy (db : Database) (orgId : Id) : Option AccessPolicy :=
  let policies := sortOn AccessPolicy.priority (db.accessPolicies.filter fun p ↦
    p.orgId = orgId ∧ p.isActive ∧ p.effect = .allow)
  policies.find? fun p ↦ hasJitConfig p.osProvisioning

def manifestOf (os : OsProvisioning) (requester : User) (uid : Nat) (leaseId : Id)
    (expiresAt now : Millis) : Manifest where
  linuxUser := jitPrincipalFor requester
  uid
  groups := os.linuxGroups
  «sudo» := os.sudo
  aclReadPaths := os.aclReadPaths
  aclRecursive := os.aclRecursive
  hardCutoff := os.hardCutoff
  leaseId
  ttlSeconds := max 0 ((expiresAt - now) / 1000)

/-- The request is approved and has time left, until the given instant. -/
def liveUntil (now : Millis) (r : AccessRequest) : Option Millis :=
  if r.status = .approved then r.expiresAt.filter fun t ↦ now < t else none

/-- `buildManifest`, with the user rows it leaves: the requester may have been
given a UID.  A failure to allocate one is caught. -/
def buildManifest (db : Database) (accessRequests : List AccessRequest) (now : Millis)
    (accessRequestId : Id) : Option Manifest × List User :=
  match lookup AccessRequest.id accessRequestId accessRequests with
  | none => (none, db.users)
  | some r =>
    match lookup User.id r.requesterId db.users, liveUntil now r with
    | some requester, some expiresAt =>
      match manifestPolicy db requester.orgId with
      | none => (none, db.users)
      | some p =>
        match JitUid.getOrAllocateUid requester.orgId db.users requester.id with
        | (.handed _ uid, users) =>
          (some (manifestOf p.osProvisioning requester uid r.id expiresAt now), users)
        | (_, users) => (none, users)
    | _, _ => (none, db.users)

/-! ## Where a manifest comes from -/

/-- The block a manifest was made of. -/
def Manifest.osProvisioning (m : Manifest) : OsProvisioning where
  linuxGroups := m.groups
  «sudo» := m.sudo
  aclReadPaths := m.aclReadPaths
  aclRecursive := m.aclRecursive
  hardCutoff := m.hardCutoff

/-- The block grants Linux groups, sudo or ACL paths. -/
def OsProvisioning.Grants (os : OsProvisioning) : Prop :=
  os.linuxGroups ≠ [] ∨ os.sudo = true ∨ os.aclReadPaths ≠ []

/-- An active ALLOW policy of the requester's organization that names the
requester and targets the server of the request has the block. -/
def Authorised (db : Database) (requester : User) (serverId : Id) (os : OsProvisioning) : Prop :=
  ∃ server, db.server requester.orgId serverId = some server ∧
    ∃ p ∈ applying db requester.orgId requester.id server none .allow, p.osProvisioning = os

def LeadsProvisioning (db : Database) (orgId : Id) (p : AccessPolicy) : Prop :=
  FirstMin AccessPolicy.priority (db.accessPolicies.filter fun p ↦
    hasJitConfig p.osProvisioning ∧ p.orgId = orgId ∧ p.isActive ∧ p.effect = .allow) p

def CanHaveUid (users : List User) (requester : User) : Prop :=
  requester.jitUid ≠ none ∨
    JitUid.minUid ≤ JitUid.nextUid requester.orgId users ∧
      JitUid.nextUid requester.orgId users ≤ JitUid.maxUid

variable {db : Database} {accessRequests : List AccessRequest} {now : Millis} {id : Id}
  {r : AccessRequest} {requester : User} {p : AccessPolicy}

theorem manifestPolicy_eq_some {orgId : Id} :
    manifestPolicy db orgId = some p ↔ LeadsProvisioning db orgId p := by
  rw [manifestPolicy, ← List.head?_filter, sortOn_filter, List.filter_filter, head?_sortOn,
    LeadsProvisioning]
  simp

theorem not_taken_nextUid (orgId : Id) (users : List User) (userId : Id) :
    JitUid.taken orgId users userId (JitUid.nextUid orgId users) = false := by
  rw [JitUid.taken, List.any_eq_false]
  intro u hu htaken
  obtain ⟨horg, -, huid⟩ := of_decide_eq_true htaken
  exact Nat.lt_irrefl _ (JitUid.lt_nextUid_of_mem hu horg huid)

theorem getOrAllocateUid_handed {users : List User}
    (h : lookup User.id requester.id users = some requester) :
    (∃ userId uid users', JitUid.getOrAllocateUid requester.orgId users requester.id =
      (.handed userId uid, users')) ↔ CanHaveUid users requester := by
  simp only [JitUid.getOrAllocateUid, h, not_taken_nextUid, CanHaveUid]
  cases hj : requester.jitUid with
  | some uid => simp
  | none =>
    by_cases hmax : JitUid.nextUid requester.orgId users > JitUid.maxUid
    · simp [hmax]
    · by_cases hmin : JitUid.nextUid requester.orgId users < JitUid.minUid
      · simp [hmax, hmin]
      · simpa [hmax, hmin] using ⟨Nat.not_lt.mp hmin, Nat.not_lt.mp hmax⟩

/-- The request is there, approved and unexpired, and so is its requester, with
a UID. -/
structure Due (db : Database) (accessRequests : List AccessRequest) (now : Millis) (id : Id)
    (r : AccessRequest) (requester : User) : Prop where
  request : lookup AccessRequest.id id accessRequests = some r
  user : lookup User.id r.requesterId db.users = some requester
  live : liveUntil now r ≠ none
  uid : CanHaveUid db.users requester

theorem Due.buildManifest (h : Due db accessRequests now id r requester)
    (hp : LeadsProvisioning db requester.orgId p) :
    ∃ m, (buildManifest db accessRequests now id).1 = some m ∧
      m.osProvisioning = p.osProvisioning := by
  obtain ⟨expiresAt, hlive⟩ := Option.ne_none_iff_exists'.mp h.live
  obtain ⟨-, hid⟩ := lookup_spec h.user
  obtain ⟨userId, uid, users, huid⟩ := (getOrAllocateUid_handed (hid ▸ h.user)).mpr h.uid
  refine ⟨manifestOf p.osProvisioning requester uid r.id expiresAt now, ?_, rfl⟩
  simp [Shellius.buildManifest, h.request, h.user, hlive, manifestPolicy_eq_some.mpr hp, huid]

theorem due_of_buildManifest {m : Manifest}
    (h : (buildManifest db accessRequests now id).1 = some m) :
    ∃ r requester p, Due db accessRequests now id r requester ∧
      LeadsProvisioning db requester.orgId p ∧ m.osProvisioning = p.osProvisioning := by
  unfold buildManifest at h
  split at h
  · cases h
  rename_i r hr
  split at h
  · rename_i requester expiresAt hreq hlive
    split at h
    · cases h
    rename_i p hp
    split at h
    · rename_i userId uid users huid
      obtain ⟨-, hid⟩ := lookup_spec hreq
      obtain rfl := Option.some.inj h
      exact ⟨r, requester, p, ⟨hr, hreq, by simp [hlive],
        (getOrAllocateUid_handed (hid ▸ hreq)).mp ⟨userId, uid, users, huid⟩⟩, manifestPolicy_eq_some.mp hp,
        rfl⟩
    · cases h
  · cases h

/-! ## Authorisation -/

/-- A manifest that grants anything grants what a policy does that names the
requester and targets the server. -/
def FollowsAuthorisation (db : Database) (accessRequests : List AccessRequest) (now : Millis)
    (id : Id) : Prop :=
  ∀ m, (buildManifest db accessRequests now id).1 = some m → m.osProvisioning.Grants →
    ∃ r requester, lookup AccessRequest.id id accessRequests = some r ∧
      lookup User.id r.requesterId db.users = some requester ∧
      Authorised db requester r.serverId m.osProvisioning

/-- If a manifest is due, the organization's first provisioning policy grants
nothing, or a policy with the same block names the requester and targets the
server. -/
def LeaderIsAuthorised (db : Database) (accessRequests : List AccessRequest) (now : Millis)
    (id : Id) : Prop :=
  ∀ r requester p, Due db accessRequests now id r requester →
    LeadsProvisioning db requester.orgId p → p.osProvisioning.Grants →
    Authorised db requester r.serverId p.osProvisioning

/-- A manifest follows authorisation exactly if the first provisioning policy of
the organization does. -/
theorem manifest_authorised_iff (db : Database) (accessRequests : List AccessRequest)
    (now : Millis) (id : Id) :
    FollowsAuthorisation db accessRequests now id ↔ LeaderIsAuthorised db accessRequests now id := by
  constructor
  · intro h r requester p hdue hp hgrants
    obtain ⟨m, hm, hos⟩ := hdue.buildManifest hp
    obtain ⟨r', requester', hr', hreq', hauth⟩ := h m hm (hos ▸ hgrants)
    obtain rfl := Option.some.inj (hdue.request.symm.trans hr')
    obtain rfl := Option.some.inj (hdue.user.symm.trans hreq')
    exact hos ▸ hauth
  · intro h m hm hgrants
    obtain ⟨r, requester, p, hdue, hp, hos⟩ := due_of_buildManifest hm
    exact ⟨r, requester, hdue.request, hdue.user,
      hos ▸ h r requester p hdue hp (hos ▸ hgrants)⟩

/-! ### Somebody else's sudo -/

def devServer : Server where
  id := "dev"
  orgId := "org"
  customerId := "acme"

/-- An organization where Olga may use sudo on production, and Ana nothing of
the kind on her development server. -/
def sudoOrg : Database where
  users := [{ id := "ana", orgId := "org", email := "ana@example.com" }]
  servers := [devServer]
  accessPolicies :=
    [{ id := "ops"
       orgId := "org"
       maxSessionDuration := 3600
       priority := 1
       targetEnvironments := [.prod]
       osProvisioning := { linuxGroups := ["docker"], «sudo» := true }
       subjects := [⟨.user, "olga"⟩] },
      { id := "dev", orgId := "org", maxSessionDuration := 3600, subjects := [⟨.user, "ana"⟩] }]

def anaApproved : AccessRequest where
  id := "req"
  orgId := "org"
  requesterId := "ana"
  reviewerId := some "max"
  serverId := "dev"
  status := .approved
  reason := "debugging"
  requestedPrincipal := "root"
  requestedDuration := 3600
  protocol := .ssh
  approvedDuration := some 3600
  approvedAt := some 0
  expiresAt := some 3600000
  createdAt := 0

/-- Ana's account gets sudo and the `docker` group on the development server
from the policy for Olga. -/
theorem manifest_grants_foreign_sudo :
    (buildManifest sudoOrg [anaApproved] 0 "req").1.map Manifest.osProvisioning =
        some { linuxGroups := ["docker"], «sudo» := true } ∧
      ¬ FollowsAuthorisation sudoOrg [anaApproved] 0 "req" := by
  refine ⟨by decide, fun h ↦ ?_⟩
  obtain ⟨r, requester, hr, hreq, server, hs, p, hp, hos⟩ := h _ rfl (.inr (.inl rfl))
  obtain rfl := Option.some.inj hr
  obtain rfl := Option.some.inj hreq
  obtain rfl := Option.some.inj hs
  have hnone : ∀ p ∈ applying sudoOrg "org" "ana" devServer none .allow,
      p.osProvisioning ≠ { linuxGroups := ["docker"], «sudo» := true } := by decide
  exact hnone p hp hos

end Shellius
