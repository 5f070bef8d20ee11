import Shellius.Sso.Accounts
import Shellius.Users.Roles

/-!
# Signing in through a provider

`ssoService.reconcileSsoUser` turns what a provider says about a person into an account.  An
account that is linked to the subject is signed in.  An account that only has the e-mail is
linked at once if it has no password and no privileges; otherwise the person has to confirm
the link, and nothing is written.  If there is no account, one may be created.

Everything that can be refused is checked before the first write, and the first write is the
only one that the database may refuse; a call that throws has therefore written nothing.
-/

namespace Shellius.Sso

open Lib

/-! ## The service -/

/-- What the provider says about the person; `none` is `undefined`. -/
structure Profile where
  subject : String
  externalId : Option String := none
  email : Option String := none
  emailVerified : Bool := false
  name : Option String := none
  picture : Option String := none

inductive LinkMode
  | password | emailApproval
deriving DecidableEq

structure PendingLink where
  mode : LinkMode
  userId : Id
  orgId : Id
  userEmail : String
  userName : String
  ssoConfigId : Id
  provider : String
  providerName : String
  presetId : Option String
  subject : String
  externalId : Option String
  email : String
  name : Option String
  picture : Option String

/-- The answer of `reconcileSsoUser`. -/
inductive SignIn
  | /-- The account, and whether it was linked by its e-mail just now. -/
    user (account : Account) (linkedNow : Bool)
  | pendingLink (pending : PendingLink)

/-- What the provider's row, the organization and the outside contribute to a call: the
lower case of the runtime, the clock and the keys of the rows that are created. -/
structure Request where
  rules : TextRules
  toLowerCase : String → String
  orgId : Id
  cfg : SsoConfig
  profile : Profile
  now : Millis
  userId : Id
  identityId : Id

/-- The label of a provider in messages. -/
def providerName (cfg : SsoConfig) : String := if cfg.name = "" then cfg.provider else cfg.name

namespace Request

variable (q : Request) (d : Directory)

/-- The e-mail that is compared; the empty string if there is none. -/
def email : String := ((truthy q.profile.email).map fun e ↦ trim (q.toLowerCase e)).getD ""

def domain : Option String := truthy ((q.email.splitOn "@")[1]?.map q.toLowerCase)

/-- The check of `allowedDomains`. -/
def checkDomain : Except ApiError Unit :=
  require (q.cfg.allowedDomains = [] ∨ ∃ x ∈ q.domain, x ∈ q.cfg.allowedDomains)
    (ssoError "domain_not_allowed"
      "Your email domain is not permitted to sign in to this organization")

def checkVerified : Except ApiError Unit :=
  require (q.cfg.requireVerifiedEmail = true → q.profile.emailVerified = true)
    (ssoError "email_not_verified"
      "Your identity provider did not assert a verified email for this account")

def linkedIdentity : Option UserIdentity := d.identities.find (q.cfg.id, q.profile.subject)

def linkedUser : Option Account := (q.linkedIdentity d).bind fun i ↦ d.users.find i.userId

/-- The person with the e-mail; never a service account. -/
def candidate : Option Account :=
  d.users.rows.find? fun u ↦ u.orgId = q.orgId ∧ u.email = q.email ∧ u.kind = .human

/-- The account is linked to another subject of the provider. -/
def Conflicts (u : Account) : Prop :=
  ∃ i ∈ d.identities, i.userId = u.id ∧ i.ssoConfigId = q.cfg.id ∧ i.subject ≠ q.profile.subject

instance (u : Account) : Decidable (q.Conflicts d u) :=
  inferInstanceAs (Decidable (∃ i ∈ d.identities.rows, _))

/-- The link that a person has to confirm. -/
def pendingLink (u : Account) (mode : LinkMode) : PendingLink where
  mode
  userId := u.id
  orgId := q.orgId
  userEmail := u.email
  userName := u.name
  ssoConfigId := q.cfg.id
  provider := q.cfg.provider
  providerName := Sso.providerName q.cfg
  presetId := truthy q.cfg.presetId
  subject := q.profile.subject
  externalId := truthy q.profile.externalId
  email := q.email
  name := truthy q.profile.name
  picture := truthy q.profile.picture

def linkConfirmationFor (u : Account) : Option LinkMode :=
  if (truthy u.passwordHash).isSome then some .password
  else if d.isPrivilegedUser u then some .emailApproval
  else none

/-- The match by e-mail: nobody, somebody who may be linked, or somebody who has to confirm
it first. -/
def matchEmail : Except ApiError (Option (Account × Option LinkMode)) :=
  if q.email = "" then pure none
  else match q.candidate d with
    | none => pure none
    | some u => do
        require (¬ q.Conflicts d u) (ssoError "identity_conflict"
          "This email is already linked to a different identity provider account")
        q.checkVerified
        require (u.status ∉ disabledStatuses) (ssoError "account_disabled" "Account is not active")
        pure (some (u, linkConfirmationFor d u))

/-! ### Writing -/

/-- The identity that is written: the subject's, if it has one, or a new one. -/
def identityRow (userId : Id) : UserIdentity :=
  match q.linkedIdentity d with
  | some i =>
    { i with
      userId
      email := truthy (some q.email)
      lastLoginAt := some q.now
      externalId := (truthy q.profile.externalId).or i.externalId }
  | none =>
    { id := q.identityId
      orgId := q.orgId
      userId
      ssoConfigId := q.cfg.id
      provider := q.cfg.provider
      subject := q.profile.subject
      externalId := truthy q.profile.externalId
      email := truthy (some q.email)
      lastLoginAt := some q.now }

def signedInRow (u : Account) : Account :=
  { u with
    name := if u.name = "" then ((truthy q.profile.name).getD u.name) else u.name
    avatarUrl :=
      match truthy q.profile.picture with
      | some picture => if (u.avatarUrl.getD "").startsWith "data:" then u.avatarUrl else some picture
      | none => u.avatarUrl
    ssoProvider := (truthy u.ssoProvider).or (some q.cfg.provider)
    ssoSub := (truthy u.ssoSub).or (some q.profile.subject)
    status := .active
    lastLoginAt := some q.now }

def newUserRow (role : NamedRole) : Account where
  id := q.userId
  orgId := q.orgId
  email := q.email
  name := (truthy q.profile.name).getD q.email
  role := role.baseRole
  roleId := some role.id
  status := .active
  ssoProvider := some q.cfg.provider
  ssoSub := some q.profile.subject
  avatarUrl := truthy q.profile.picture

end Request

def isAutoAssignable (role : Role) : Bool :=
  !isOwnerRole role && (permissionsOfRole role).all fun p ↦ p ∉ sensitivePermissions

namespace Directory

variable (d : Directory)

/-- `ssoDefaultRole`: the configured role if it is still safe, else the member's. -/
def ssoDefaultRole (rules : TextRules) (orgId : Id) (ref : String) : Option NamedRole :=
  (((truthy (some ref)).bind (resolveRole rules { roles := d.roles } orgId)).filter
    fun r ↦ isAutoAssignable r.toRole).or (getSystemRole { roles := d.roles } orgId .member)

/-- The user with a key gets another row, with the same role. -/
def updateUser (id : Id) (f : Account → Account) (hid : ∀ u, (f u).id = u.id)
    (hrole : ∀ u, (f u).roleId = u.roleId ∧ (f u).role = u.role) : Directory :=
  { d with
    users := d.users.update (fun u ↦ if u.id = id then f u else u) (by
      intro u
      split
      · exact hid u
      · rfl)
    tiers := by
      intro v hv r hr hrid
      obtain ⟨u, hu, rfl⟩ := (Keyed.mem_update _).mp hv
      by_cases he : u.id = id
      · rw [if_pos he] at hrid ⊢
        rw [(hrole u).2]
        exact d.tiers u hu r hr ((hrole u).1 ▸ hrid)
      · rw [if_neg he] at hrid ⊢
        exact d.tiers u hu r hr hrid }

/-- One more user, unless the e-mail or the key is taken. -/
def createUser (u : Account) (hrole : ∀ r ∈ d.roles, u.roleId = some r.id → u.role = r.baseRole) :
    Except ApiError Directory := do
  require (∀ v ∈ d.users.rows, ¬ (v.orgId = u.orgId ∧ v.email = u.email)) duplicateRow
  let ⟨users, hinsert⟩ ← demand (d.users.insert? u).attach duplicateRow
  pure
    { d with
      users
      tiers := by
        obtain ⟨hfree, rfl⟩ := Keyed.insert?_eq_some.mp hinsert
        intro v hv r hr hrid
        obtain hv | rfl := (Keyed.mem_insert hfree).mp hv
        · exact d.tiers v hv r hr hrid
        · exact hrole r hr hrid }

def joinGroup (groupId : Option Id) (userId : Id) : Directory :=
  match truthy groupId with
  | some g =>
    if g ∈ d.groups ∧ ⟨g, userId⟩ ∉ d.groupMemberships then
      { d with groupMemberships := d.groupMemberships ++ [⟨g, userId⟩] }
    else d
  | none => d

/-- `prisma.userIdentity.upsert` -/
def upsertIdentity (i : UserIdentity) : Directory := { d with identities := d.identities.upsert i }

variable {d}

theorem ssoDefaultRole_spec {rules : TextRules} {orgId : Id} {ref : String} {r : NamedRole}
    (h : d.ssoDefaultRole rules orgId ref = some r) :
    r ∈ d.roles ∧ (isOwnerRole r.toRole = false ∨ r.key = OrgRole.member.key) := by
  obtain h | ⟨-, h⟩ := Option.or_eq_some_iff.mp h
  · obtain ⟨h, hsafe⟩ := Option.filter_eq_some_iff.mp h
    obtain ⟨ref, -, h⟩ := Option.bind_eq_some_iff.mp h
    refine ⟨(resolveRole_spec h).1, .inl ?_⟩
    simpa using (Bool.and_eq_true_iff.mp hsafe).1
  · exact ⟨(getSystemRole_spec h).1, .inr (getSystemRole_spec h).2.2.1⟩

theorem ssoDefaultRole_ne_superAdmin {rules : TextRules} {orgId : Id} {ref : String}
    {r : NamedRole} (h : d.ssoDefaultRole rules orgId ref = some r) :
    r.baseRole ≠ .superAdmin := by
  intro htier
  obtain ⟨hmem, hsafe⟩ := ssoDefaultRole_spec h
  have howner := d.owner r hmem htier
  obtain hno | hkey := hsafe
  · rw [hno] at howner
    cases howner
  · rw [isOwnerRole, hkey] at howner
    exact absurd howner (by simp [OrgRole.key])

end Directory

namespace Request

variable (q : Request) (d : Directory)

def signInExisting (u : Account) (linkedNow : Bool) : Except ApiError (Directory × SignIn) := do
  require (u.status ∉ disabledStatuses) (ssoError "account_disabled" "Account is not active")
  let d' := d.updateUser u.id q.signedInRow (fun _ ↦ rfl) fun _ ↦ ⟨rfl, rfl⟩
  pure (d'.upsertIdentity (q.identityRow d u.id), .user (q.signedInRow u) linkedNow)

/-- Creating a user. -/
def provision : Except ApiError (Directory × SignIn) := do
  require (q.cfg.autoProvision = true) (ssoError "provisioning_disabled"
    ("Your account has not been set up in Shellius yet. Please contact your administrator to " ++
      "request access."))
  require (q.email ≠ "")
    (ssoError "sso_failed" (q.cfg.provider ++ " response is missing an email"))
  q.checkVerified
  let ⟨role, hrole⟩ ← demand (d.ssoDefaultRole q.rules q.orgId q.cfg.defaultRole).attach
    ⟨500, "Internal server error", none⟩
  let d' ← d.createUser (q.newUserRow role) (by
    intro r hr hid
    have hkey : role.id = r.id := Option.some.inj hid
    show role.baseRole = r.baseRole
    rw [Keyed.ext (Directory.ssoDefaultRole_spec hrole).1 hr hkey])
  pure (((d'.joinGroup q.cfg.defaultGroupId q.userId).upsertIdentity (q.identityRow d q.userId)),
    .user (q.newUserRow role) false)

/-- `reconcileSsoUser`, up to what it throws. -/
def reconcile : Except ApiError (Directory × SignIn) := do
  require (q.profile.subject ≠ "")
    (ssoError "sso_failed" (q.cfg.provider ++ " response is missing a subject/sub claim"))
  q.checkDomain
  match q.linkedUser d with
  | some u => q.signInExisting d u false
  | none => do
      match ← q.matchEmail d with
      | some (u, some mode) => pure (d, .pendingLink (q.pendingLink u mode))
      | some (u, none) => q.signInExisting d u true
      | none => q.provision d

end Request

/-- The account has no identity of the provider. -/
def Unlinked (d : Directory) (ssoConfigId : Id) (u : Account) : Prop :=
  ∀ i ∈ d.identities, i.userId = u.id → i.ssoConfigId ≠ ssoConfigId

/-- The accounts that a call may sign in.  `verified` is what is asked of the e-mail by which
an account is linked. -/
inductive Rightful (verified : Prop) (q : Request) (d d' : Directory) (u : Account) : Prop
  | linked (i : UserIdentity) (hi : i ∈ d.identities) (hcfg : i.ssoConfigId = q.cfg.id)
      (hsubject : i.subject = q.profile.subject) (huser : i.userId = u.id)
  | /-- The account has the e-mail, no identity of the provider, no password and no privileges,
    and is linked now. -/
    linkedNow (v : Account) (hv : v ∈ d.users) (hid : v.id = u.id) (horg : v.orgId = q.orgId)
      (hemail : v.email = q.email) (hverified : verified) (hunlinked : Unlinked d q.cfg.id v)
      (hpassword : truthy v.passwordHash = none) (howner : v.role ≠ .superAdmin)
      (hprivileged : d.isPrivilegedUser v = false)
      (hlinked : ∃ i ∈ d'.identities, i.key = (q.cfg.id, q.profile.subject) ∧ i.userId = u.id)
  | created (hnew : ∀ v ∈ d.users, v.id ≠ u.id) (hu : u ∈ d'.users) (horg : u.orgId = q.orgId)
      (howner : u.role ≠ .superAdmin)

/-- No account is taken over: whoever is signed in is rightly so, identities are written for
nobody else, and without a sign-in nothing is written. -/
structure NoTakeover (verified : Prop) (q : Request) (d d' : Directory)
    (answer : Except ApiError SignIn) : Prop where
  signedIn : ∀ u linkedNow, answer = .ok (.user u linkedNow) → Rightful verified q d d' u
  identities : ∀ i ∈ d'.identities, i ∈ d.identities ∨
    ∃ u linkedNow, answer = .ok (.user u linkedNow) ∧ i.userId = u.id
  otherwise : (∀ u linkedNow, answer ≠ .ok (.user u linkedNow)) → d' = d

variable {q : Request} {d d' : Directory} {u : Account} {linkedNow : Bool} {answer : SignIn}

theorem linkedIdentity_spec {i : UserIdentity} (h : q.linkedIdentity d = some i) :
    i ∈ d.identities ∧ i.ssoConfigId = q.cfg.id ∧ i.subject = q.profile.subject := by
  obtain ⟨hmem, hkey⟩ := Keyed.find_eq_some.mp h
  obtain ⟨hcfg, hsubject⟩ := Prod.mk.inj hkey
  exact ⟨hmem, hcfg, hsubject⟩

theorem linkedUser_spec (h : q.linkedUser d = some u) :
    ∃ i ∈ d.identities, i.ssoConfigId = q.cfg.id ∧ i.subject = q.profile.subject ∧
      i.userId = u.id := by
  obtain ⟨i, hi, hfind⟩ := Option.bind_eq_some_iff.mp h
  obtain ⟨hmem, hcfg, hsubject⟩ := linkedIdentity_spec hi
  exact ⟨i, hmem, hcfg, hsubject, (Keyed.key_of_find hfind).symm⟩

theorem identityRow_spec (userId : Id) :
    (q.identityRow d userId).key = (q.cfg.id, q.profile.subject) ∧
      (q.identityRow d userId).userId = userId := by
  unfold Request.identityRow
  split
  · rename_i i hi
    obtain ⟨-, hcfg, hsubject⟩ := linkedIdentity_spec hi
    exact ⟨Prod.ext hcfg hsubject, rfl⟩
  · exact ⟨rfl, rfl⟩

theorem candidate_spec (h : q.candidate d = some u) :
    u ∈ d.users ∧ u.orgId = q.orgId ∧ u.email = q.email := by
  have hp := List.find?_some h
  simp only [decide_eq_true_eq] at hp
  exact ⟨List.mem_of_find?_eq_some h, hp.1, hp.2.1⟩

theorem linkConfirmationFor_eq_none (h : Request.linkConfirmationFor d u = none) :
    truthy u.passwordHash = none ∧ d.isPrivilegedUser u = false := by
  unfold Request.linkConfirmationFor at h
  split at h
  · cases h
  · rename_i hpassword
    split at h
    · cases h
    · rename_i hprivileged
      exact ⟨by simpa using hpassword, by simpa using hprivileged⟩

theorem matchEmail_spec {mode : Option LinkMode} (h : q.matchEmail d = .ok (some (u, mode))) :
    q.candidate d = some u ∧ ¬ q.Conflicts d u ∧
      (q.cfg.requireVerifiedEmail = true → q.profile.emailVerified = true) ∧
      Request.linkConfirmationFor d u = mode := by
  unfold Request.matchEmail at h
  split at h
  · simp only [pure_eq_ok] at h
    cases h
  · split at h
    · simp only [pure_eq_ok] at h
      cases h
    · rename_i v hv
      simp only [Request.checkVerified, bind_eq_ok, require_eq_ok, pure_eq_ok] at h
      obtain ⟨-, hconflict, -, hverified, -, -, heq⟩ := h
      obtain ⟨rfl, rfl⟩ := Prod.mk.inj (Option.some.inj heq)
      exact ⟨hv, hconflict, hverified, rfl⟩

theorem unlinked_of_not_conflicts (hnone : q.linkedUser d = none) (hu : u ∈ d.users)
    (h : ¬ q.Conflicts d u) : Unlinked d q.cfg.id u := by
  intro i hi huser hcfg
  by_cases hsubject : i.subject = q.profile.subject
  · have hfind : q.linkedIdentity d = some i :=
      Keyed.find_eq_some.mpr ⟨hi, Prod.ext hcfg hsubject⟩
    have hlinked : q.linkedUser d = some u := by
      unfold Request.linkedUser
      rw [hfind, Option.bind_some, huser]
      exact Keyed.find_key hu
    rw [hlinked] at hnone
    cases hnone
  · exact h ⟨i, hi, huser, hcfg, hsubject⟩

theorem mem_identities_upsert {i j : UserIdentity} (h : i ∈ (d.upsertIdentity j).identities) :
    i ∈ d.identities ∨ i = j := by
  obtain rfl | ⟨h, -⟩ := Keyed.mem_upsert.mp h
  · exact .inr rfl
  · exact .inl h

theorem signInExisting_spec (h : q.signInExisting d u linkedNow = .ok (d', answer)) :
    answer = .user (q.signedInRow u) linkedNow ∧ q.identityRow d u.id ∈ d'.identities ∧
      ∀ i ∈ d'.identities, i ∈ d.identities ∨ i.userId = u.id := by
  simp only [Request.signInExisting, bind_eq_ok, require_eq_ok, pure_eq_ok] at h
  obtain ⟨-, -, heq⟩ := h
  obtain ⟨rfl, rfl⟩ := Prod.mk.inj heq
  refine ⟨rfl, Keyed.mem_upsert.mpr (.inl rfl), ?_⟩
  intro i hi
  obtain hi | rfl := mem_identities_upsert hi
  · exact .inl hi
  · exact .inr (identityRow_spec u.id).2

theorem createUser_spec {hrole : ∀ r ∈ d.roles, u.roleId = some r.id → u.role = r.baseRole}
    (h : d.createUser u hrole = .ok d') :
    (∀ v ∈ d.users, v.id ≠ u.id) ∧ u ∈ d'.users ∧ d'.identities = d.identities := by
  simp only [Directory.createUser, bind_eq_ok, require_eq_ok, demand_eq_ok, pure_eq_ok] at h
  obtain ⟨-, -, ⟨users, hinsert⟩, -, rfl⟩ := h
  obtain ⟨hfree, rfl⟩ := Keyed.insert?_eq_some.mp hinsert
  exact ⟨hfree, (Keyed.mem_insert hfree).mpr (.inr rfl), rfl⟩

theorem joinGroup_users (d : Directory) (groupId : Option Id) (userId : Id) :
    (d.joinGroup groupId userId).users = d.users ∧
      (d.joinGroup groupId userId).identities = d.identities := by
  unfold Directory.joinGroup
  split
  · split <;> exact ⟨rfl, rfl⟩
  · exact ⟨rfl, rfl⟩

theorem provision_spec {p : Prop} (h : q.provision d = .ok (d', answer)) :
    ∃ u, answer = .user u false ∧ Rightful p q d d' u ∧
      ∀ i ∈ d'.identities, i ∈ d.identities ∨ i.userId = u.id := by
  simp only [Request.provision, Request.checkVerified, bind_eq_ok, require_eq_ok, demand_eq_ok,
    pure_eq_ok] at h
  obtain ⟨-, -, -, -, -, -, ⟨role, hrole⟩, -, d₁, hcreate, heq⟩ := h
  obtain ⟨rfl, rfl⟩ := Prod.mk.inj heq
  obtain ⟨hfree, hmem, hsame⟩ := createUser_spec hcreate
  obtain ⟨husers, hidentities⟩ := joinGroup_users d₁ q.cfg.defaultGroupId q.userId
  refine ⟨_, rfl, .created hfree ?_ rfl (Directory.ssoDefaultRole_ne_superAdmin hrole), ?_⟩
  · show _ ∈ (d₁.joinGroup _ _).users
    rw [husers]
    exact hmem
  · intro i hi
    obtain hi | rfl := mem_identities_upsert hi
    · exact .inl (hsame ▸ hidentities ▸ hi)
    · exact .inr (identityRow_spec q.userId).2

theorem reconcile_ok (h : q.reconcile d = .ok (d', answer)) :
    NoTakeover (q.cfg.requireVerifiedEmail = true → q.profile.emailVerified = true) q d d'
      (.ok answer) := by
  simp only [Request.reconcile, bind_eq_ok, require_eq_ok] at h
  obtain ⟨-, -, -, -, h⟩ := h
  split at h
  · -- the subject is linked
    rename_i u hlinked
    obtain ⟨i, hi, hcfg, hsubject, huser⟩ := linkedUser_spec hlinked
    obtain ⟨rfl, -, hids⟩ := signInExisting_spec h
    refine ⟨?_, fun j hj ↦ (hids j hj).imp_right fun hj ↦ ⟨_, _, rfl, hj⟩, ?_⟩
    · rintro _ _ ⟨⟩
      exact .linked i hi hcfg hsubject huser
    · intro hno
      exact absurd rfl (hno _ _)
  · rename_i hnone
    obtain ⟨found, hmatch, h⟩ := bind_eq_ok.mp h
    cases found with
    | none =>
      obtain ⟨u, rfl, hrightful, hids⟩ := provision_spec
        (p := q.cfg.requireVerifiedEmail = true → q.profile.emailVerified = true) h
      refine ⟨?_, fun j hj ↦ (hids j hj).imp_right fun hj ↦ ⟨_, _, rfl, hj⟩, ?_⟩
      · rintro _ _ ⟨⟩
        exact hrightful
      · intro hno
        exact absurd rfl (hno _ _)
    | some found =>
      obtain ⟨u, mode⟩ := found
      cases mode with
      | some mode =>
        obtain ⟨rfl, rfl⟩ := Prod.mk.inj (pure_eq_ok.mp h)
        refine ⟨?_, fun j hj ↦ .inl hj, fun _ ↦ rfl⟩
        rintro _ _ ⟨⟩
      | none =>
        obtain ⟨hfound, hconflict, hverified, hconfirm⟩ := matchEmail_spec hmatch
        obtain ⟨hu, horg, hemail⟩ := candidate_spec hfound
        obtain ⟨hpassword, hprivileged⟩ := linkConfirmationFor_eq_none hconfirm
        obtain ⟨rfl, hrow, hids⟩ := signInExisting_spec h
        refine ⟨?_, fun j hj ↦ (hids j hj).imp_right fun hj ↦ ⟨_, _, rfl, hj⟩, ?_⟩
        · rintro _ _ ⟨⟩
          refine .linkedNow u hu rfl horg hemail hverified
            (unlinked_of_not_conflicts hnone hu hconflict) hpassword ?_ hprivileged
            ⟨_, hrow, identityRow_spec u.id⟩
          intro howner
          rw [Directory.isPrivilegedUser_of_superAdmin hu howner] at hprivileged
          cases hprivileged
        · intro hno
          exact absurd rfl (hno _ _)

def invitedAna : Account :=
  { id := "u1", orgId := "o1", email := "ana@x", name := "Ana", status := .invited }

def invitedDirectory : Directory where
  users := ⟨[invitedAna], by decide⟩
  tiers := by
    intro u _ r hr
    exact absurd hr Keyed.notMem_empty
  owner := by
    intro r hr
    exact absurd hr Keyed.notMem_empty

end Shellius.Sso
