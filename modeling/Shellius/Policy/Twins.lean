import Shellius.Policy.Bulk

/-!
# Policy evaluation with another role for one user

A twin of the organization data has one role more, held by one user instead of their own and
with the same key.  The same policies match the same users in both, so an evaluation differs
only through the permissions of that user, and only as far as the two permissions that bypass
policies and production approval decide it.
-/

namespace Shellius

open Lib

/-- The row of a user, with another role if it is the row of `userId`. -/
def holdRole (userId roleId : Id) (u : User) : User :=
  { u with roleId := if u.id = userId then some roleId else u.roleId }

theorem holdRole_of_ne {userId roleId : Id} {u : User} (h : u.id ≠ userId) :
    holdRole userId roleId u = u := by
  unfold holdRole
  rw [if_neg h]

/-- The organization data, with the role `r` added and held by the user. -/
structure Database.Twin (userId : Id) (r : Role) (db db' : Database) : Prop where
  organizations : db'.organizations = db.organizations
  roles : db'.roles = db.roles ++ [r]
  users : db'.users = db.users.map (holdRole userId r.id)
  groups : db'.groups = db.groups
  groupMemberships : db'.groupMemberships = db.groupMemberships
  credentials : db'.credentials = db.credentials
  servers : db'.servers = db.servers
  accessPolicies : db'.accessPolicies = db.accessPolicies
  fresh : ∀ x ∈ db.roles, x.id ≠ r.id
  unheld : ∀ u ∈ db.users, u.roleId ≠ some r.id
  /-- The added role has the key of the one it replaces, or none where there was none. -/
  key : ∀ u ∈ db.users, u.id = userId →
    truthy (some r.key) = truthy ((db.assignedRole u).map Role.key)

namespace Database.Twin

variable {userId orgId id : Id} {r : Role} {db db' : Database} {pr : Option String}

/-! ## Who is asking -/

theorem server (h : Twin userId r db db') : db'.server orgId id = db.server orgId id := by
  unfold Database.server
  rw [h.servers]

theorem user (h : Twin userId r db db') :
    db'.user orgId id = (db.user orgId id).map (holdRole userId r.id) := by
  unfold Database.user
  rw [h.users, List.find?_map]
  rfl

theorem assignedRole (h : Twin userId r db db') {u : User} (hu : u ∈ db.users)
    (hne : u.id ≠ userId) : db'.assignedRole (holdRole userId r.id u) = db.assignedRole u := by
  rw [holdRole_of_ne hne]
  unfold Database.assignedRole
  cases hrole : u.roleId with
  | none => rfl
  | some k =>
    have hk : r.id ≠ k := fun he ↦ h.unheld u hu (hrole.trans (congrArg some he.symm))
    simp [h.roles, List.find?_append, hk]

theorem assignedRole_self (h : Twin userId r db db') {u : User} (hid : u.id = userId) :
    db'.assignedRole (holdRole userId r.id u) = some r := by
  have hnone : db.roles.find? (fun x ↦ decide (x.id = r.id)) = none := by
    rw [List.find?_eq_none]
    intro x hx
    simp [h.fresh x hx]
  unfold Database.assignedRole holdRole
  simp [hid, h.roles, List.find?_append, hnone]

theorem mem_of_user {u : User} (hu : db.user orgId id = some u) : u ∈ db.users ∧ u.id = id := by
  have hp := List.find?_some hu
  simp only [decide_eq_true_eq] at hp
  exact ⟨List.mem_of_find?_eq_some hu, hp.1⟩

theorem roleKeys (h : Twin userId r db db') :
    (loadSubject db' id orgId).roleKeys = (loadSubject db id orgId).roleKeys := by
  unfold loadSubject
  rw [h.user]
  cases hu : db.user orgId id with
  | none => rfl
  | some u =>
    obtain ⟨hmem, -⟩ := mem_of_user hu
    by_cases hid : u.id = userId
    · have hkeys : ([some u.role.key, some r.key].filterMap truthy) =
          [some u.role.key, (db.assignedRole u).map Role.key].filterMap truthy := by
        simp only [List.filterMap_cons, List.filterMap_nil, h.key u hmem hid]
      simp only [Option.map_some, h.assignedRole_self hid]
      exact congrArg List.eraseDups hkeys
    · simp only [Option.map_some, h.assignedRole hmem hid]
      rw [holdRole_of_ne hid]

theorem loadSubject_of_ne (h : Twin userId r db db') (hne : id ≠ userId) :
    loadSubject db' id orgId = loadSubject db id orgId := by
  unfold loadSubject
  rw [h.user]
  cases hu : db.user orgId id with
  | none => rfl
  | some u =>
    obtain ⟨hmem, rfl⟩ := mem_of_user hu
    simp only [Option.map_some, h.assignedRole hmem hne]
    rw [holdRole_of_ne hne]

/-! ## What the policies say -/

theorem resolveUserGroupIds (h : Twin userId r db db') :
    resolveUserGroupIds db' id orgId = resolveUserGroupIds db id orgId := by
  unfold Shellius.resolveUserGroupIds
  rw [h.groups, h.groupMemberships]

theorem loadMatchingPolicies (h : Twin userId r db db') {userGroupIds : List Id}
    {roleKeys : List String} :
    loadMatchingPolicies db' orgId id userGroupIds roleKeys =
      loadMatchingPolicies db orgId id userGroupIds roleKeys := by
  unfold Shellius.loadMatchingPolicies
  rw [h.accessPolicies]

theorem matchingPolicies (h : Twin userId r db db') {s : Server} {serverId : Id} :
    matchingPolicies db' orgId id s serverId pr = matchingPolicies db orgId id s serverId pr := by
  unfold Shellius.matchingPolicies
  rw [h.resolveUserGroupIds, h.roleKeys, h.loadMatchingPolicies]

theorem canBypassProdApproval (h : Twin userId r db db') {perms : List String} :
    canBypassProdApproval db' orgId perms = canBypassProdApproval db orgId perms := by
  unfold Shellius.canBypassProdApproval isProdBypassEnabled Database.organization
  rw [h.organizations]

theorem findApproverPolicy (h : Twin userId r db db') {serverId : Id} :
    findApproverPolicy db' orgId id serverId pr = findApproverPolicy db orgId id serverId pr := by
  unfold Shellius.findApproverPolicy
  rw [h.server]
  split
  · rfl
  · rw [h.matchingPolicies]

end Database.Twin

/-! ## Rulings by permissions -/

section

variable {db : Database} {orgId userId : Id} {server : Server} {pr : Option String}
  {held kept : List String}

def usesBypass (db : Database) (orgId : Id) (server : Server) (permissions : List String) : Bool :=
  decide ("access.bypass_policies" ∈ permissions) &&
    (!decide (server.environment = .prod) || canBypassProdApproval db orgId permissions)

def rulingWith (db : Database) (orgId userId : Id) (server : Server) (pr : Option String)
    (permissions : List String) : Evaluation :=
  let matching := matchingPolicies db orgId userId server server.id pr
  if usesBypass db orgId server permissions then
    evaluateBypass matching (server.environment = .prod) pr
  else
    evaluateOrgWide matching (server.environment = .prod)
      (canBypassProdApproval db orgId permissions)

theorem rulingOf_eq : rulingOf db orgId userId server pr =
    rulingWith db orgId userId server pr (loadSubject db userId orgId).permissions := rfl

/-- What an evaluation decides: whether access is allowed, and whether it takes approval. -/
def Evaluation.outcome (e : Evaluation) : Bool × Bool := (e.allowed, e.requiresApproval)

theorem canBypass_of_usesBypass (hprod : server.environment = .prod)
    (h : usesBypass db orgId server held = true) : canBypassProdApproval db orgId held = true := by
  simpa [usesBypass, hprod] using (Bool.and_eq_true_iff.mp h).2

theorem rulingWith_of_deny {p : AccessPolicy} (h : Leads db orgId userId server pr .deny p) :
    rulingWith db orgId userId server pr held = deniedBy p := by
  unfold rulingWith
  split
  · simp only [evaluateBypass, findDeny_eq_some.mpr h]
  · simp only [evaluateOrgWide, findDeny_eq_some.mpr h]

theorem rulingWith_of_bypass (hd : applying db orgId userId server pr .deny = [])
    (h : usesBypass db orgId server held = true) :
    rulingWith db orgId userId server pr held =
      { allowed := true
        requiresApproval := false
        autoApprove := true
        principals := (truthy pr).toList
        maxTtl := 86400
        reason := some (if server.environment = .prod then "policy bypass (prod)"
          else "policy bypass")
        prodBypass := server.environment = .prod } := by
  rw [rulingWith, if_pos h]
  simp [evaluateBypass, findDeny_eq_none.mpr hd]

theorem rulingWith_of_allow {p : AccessPolicy} (hd : applying db orgId userId server pr .deny = [])
    (h : usesBypass db orgId server held = false) (hp : Leads db orgId userId server pr .allow p) :
    rulingWith db orgId userId server pr held =
      { allowed := true
        requiresApproval := if server.environment = .prod then !canBypassProdApproval db orgId held
          else p.requireApproval
        autoApprove := p.autoApprove
        principals := p.allowedPrincipals
        maxTtl := p.maxSessionDuration
        policyId := some p.id
        prodBypass := decide (server.environment = .prod) &&
          canBypassProdApproval db orgId held } := by
  rw [rulingWith, if_neg (by simp [h])]
  by_cases hprod : server.environment = .prod
  · simp [evaluateOrgWide, findDeny_eq_none.mpr hd, bestAllow_eq_some.mpr hp, hprod]
  · simp [evaluateOrgWide, findDeny_eq_none.mpr hd, bestAllow_eq_some.mpr hp, hprod]

theorem rulingWith_of_none (hd : applying db orgId userId server pr .deny = [])
    (h : usesBypass db orgId server held = false)
    (ha : applying db orgId userId server pr .allow = []) :
    rulingWith db orgId userId server pr held =
      { allowed := false
        requiresApproval := false
        autoApprove := false
        reason := some "No matching policy" } := by
  rw [rulingWith, if_neg (by simp [h])]
  simp [evaluateOrgWide, findDeny_eq_none.mpr hd, bestAllow_eq_none.mpr ha]

/-- The two bypass permissions do not decide the ruling: a DENY policy applies; or no policy
does and the need for one is the same; or an ALLOW policy leads, and the permissions agree on
what its approval depends on. -/
def Indifferent (db : Database) (orgId userId : Id) (server : Server) (pr : Option String)
    (held kept : List String) : Prop :=
  applying db orgId userId server pr .deny = [] →
    (applying db orgId userId server pr .allow = [] →
      usesBypass db orgId server held = usesBypass db orgId server kept) ∧
    ∀ p, Leads db orgId userId server pr .allow p →
      if server.environment = .prod then
        canBypassProdApproval db orgId held = canBypassProdApproval db orgId kept
      else p.requireApproval = true →
        usesBypass db orgId server held = usesBypass db orgId server kept

theorem usesBypass_congr
    (hpolicies : "access.bypass_policies" ∈ held ↔ "access.bypass_policies" ∈ kept)
    (hprod : "access.prod_bypass" ∈ held ↔ "access.prod_bypass" ∈ kept) :
    usesBypass db orgId server held = usesBypass db orgId server kept ∧
      canBypassProdApproval db orgId held = canBypassProdApproval db orgId kept := by
  unfold usesBypass canBypassProdApproval
  simp only [hpolicies, hprod, true_and]

theorem indifferent_of_iff
    (hpolicies : "access.bypass_policies" ∈ held ↔ "access.bypass_policies" ∈ kept)
    (hprod : "access.prod_bypass" ∈ held ↔ "access.prod_bypass" ∈ kept) :
    Indifferent db orgId userId server pr held kept := by
  have hboth : usesBypass db orgId server held = usesBypass db orgId server kept ∧
      canBypassProdApproval db orgId held = canBypassProdApproval db orgId kept :=
    usesBypass_congr hpolicies hprod
  obtain ⟨huses, hcan⟩ := hboth
  intro _
  refine ⟨fun _ ↦ huses, fun p _ ↦ ?_⟩
  split
  · exact hcan
  · exact fun _ ↦ huses

theorem exists_leads {effect : PolicyEffect}
    (h : applying db orgId userId server pr effect ≠ []) :
    ∃ p, Leads db orgId userId server pr effect p := by
  cases effect with
  | allow =>
    cases hb : bestAllow (matchingPolicies db orgId userId server server.id pr) with
    | none => exact absurd (bestAllow_eq_none.mp hb) h
    | some p => exact ⟨p, bestAllow_eq_some.mp hb⟩
  | deny =>
    cases hb : findDeny (matchingPolicies db orgId userId server server.id pr) with
    | none => exact absurd (findDeny_eq_none.mp hb) h
    | some p => exact ⟨p, findDeny_eq_some.mp hb⟩

theorem outcome_of_none (hd : applying db orgId userId server pr .deny = [])
    (ha : applying db orgId userId server pr .allow = []) :
    (rulingWith db orgId userId server pr held).outcome =
      (usesBypass db orgId server held, false) := by
  cases hb : usesBypass db orgId server held with
  | true => rw [rulingWith_of_bypass hd hb]; rfl
  | false => rw [rulingWith_of_none hd hb ha]; rfl

theorem outcome_of_allow {p : AccessPolicy} (hd : applying db orgId userId server pr .deny = [])
    (hp : Leads db orgId userId server pr .allow p) :
    (rulingWith db orgId userId server pr held).outcome =
      (true, if server.environment = .prod then !canBypassProdApproval db orgId held
        else !usesBypass db orgId server held && p.requireApproval) := by
  cases hb : usesBypass db orgId server held with
  | true =>
    rw [rulingWith_of_bypass hd hb]
    by_cases hprod : server.environment = .prod
    · simp [Evaluation.outcome, hprod, canBypass_of_usesBypass hprod hb]
    · simp [Evaluation.outcome, hprod]
  | false =>
    rw [rulingWith_of_allow hd hb hp]
    simp [Evaluation.outcome]

theorem outcome_eq_iff :
    (rulingWith db orgId userId server pr held).outcome =
        (rulingWith db orgId userId server pr kept).outcome ↔
      Indifferent db orgId userId server pr held kept := by
  unfold Indifferent
  by_cases hd : applying db orgId userId server pr .deny = []
  · simp only [hd, forall_true_left]
    by_cases ha : applying db orgId userId server pr .allow = []
    · have hno (p : AccessPolicy) : ¬ Leads db orgId userId server pr .allow p :=
        not_leads_of_applying_eq_nil ha
      rw [outcome_of_none hd ha, outcome_of_none hd ha]
      simp [ha, hno]
    · obtain ⟨p, hp⟩ := exists_leads ha
      have hall (P : AccessPolicy → Prop) : (∀ q, Leads db orgId userId server pr .allow q → P q) ↔
          P p := ⟨fun h ↦ h p hp, fun h q hq ↦ hp.unique hq ▸ h⟩
      rw [outcome_of_allow hd hp, outcome_of_allow hd hp, hall]
      by_cases hprod : server.environment = .prod
      · simp [ha, hprod]
      · cases hreq : p.requireApproval with
        | true => simp [ha, hprod]
        | false => simp [ha, hprod]
  · obtain ⟨p, hp⟩ := exists_leads hd
    rw [rulingWith_of_deny hp, rulingWith_of_deny hp]
    simp [hd]

end

/-! ## Evaluations by permissions -/

/-- The evaluation of a question, if the user it is about had these permissions. -/
def evaluateWith (db : Database) (permissions : List String) (params : EvaluateParams) :
    Except ApiError Evaluation :=
  let { orgId, userId, serverId, requestedPrincipal, policyId, draftPolicy } := params
  if orgId = "" then .error ⟨400, "orgId is required", none⟩
  else if userId = "" then .error ⟨400, "userId is required", none⟩
  else if serverId = "" then .error ⟨400, "serverId is required", none⟩
  else
    match db.server orgId serverId with
    | none => .error ⟨404, "Server not found", none⟩
    | some server =>
      match draftPolicy with
      | some draft => .ok (evaluateDraft draft server serverId requestedPrincipal)
      | none =>
        match truthy policyId with
        | some id =>
          match db.accessPolicies.find? fun p ↦ p.id = id ∧ p.orgId = orgId with
          | none => .error ⟨404, "Policy not found", none⟩
          | some p => .ok (evaluateSaved p server serverId requestedPrincipal)
        | none => .ok (rulingWith db orgId userId server requestedPrincipal permissions)

theorem evaluate_eq_evaluateWith (db : Database) (params : EvaluateParams) :
    evaluate db params =
      evaluateWith db (loadSubject db params.userId params.orgId).permissions params := by
  obtain ⟨orgId, userId, serverId, pr, policyId, draftPolicy⟩ := params
  unfold evaluate evaluateWith
  dsimp only
  split
  · rfl
  split
  · rfl
  split
  · rfl
  cases hs : db.server orgId serverId with
  | none => rfl
  | some server =>
    obtain ⟨-, hid, -⟩ := Database.server_spec hs
    cases draftPolicy with
    | some draft =>
      dsimp only
      rw [if_neg (by simp)]
    | none =>
      cases hp : truthy policyId with
      | some id =>
        dsimp only
        exact if_neg (by simp)
      | none =>
        have hbypass : ("access.bypass_policies" ∈ (loadSubject db userId orgId).permissions ∧
            (none : Option String) = none ∧ (none : Option DraftPolicy) = none ∧
            (¬ server.environment = .prod ∨
              canBypassProdApproval db orgId (loadSubject db userId orgId).permissions =
                true)) ↔
            usesBypass db orgId server (loadSubject db userId orgId).permissions = true := by
          simp [usesBypass]
        dsimp only
        by_cases hb : usesBypass db orgId server
            (loadSubject db userId orgId).permissions = true
        · rw [if_pos (hbypass.mpr hb), rulingWith, if_pos hb, hid]
        · rw [if_neg (hb ∘ hbypass.mp), rulingWith, if_neg hb, hid]

/-- The bypass permissions do not decide the question: it is about one policy or a draft, or they
do not decide the ruling. -/
def EvaluateParams.Indifferent (db : Database) (params : EvaluateParams) (held kept : List String) :
    Prop :=
  params.orgId ≠ "" → params.userId ≠ "" → params.draftPolicy = none →
    truthy params.policyId = none → ∀ server, db.server params.orgId params.serverId = some server →
      Shellius.Indifferent db params.orgId params.userId server params.requestedPrincipal held kept

theorem evaluateWith_outcome_eq_iff {db : Database} {params : EvaluateParams}
    {held kept : List String} :
    (evaluateWith db held params).map Evaluation.outcome =
        (evaluateWith db kept params).map Evaluation.outcome ↔ params.Indifferent db held kept := by
  obtain ⟨orgId, userId, serverId, pr, policyId, draftPolicy⟩ := params
  unfold evaluateWith EvaluateParams.Indifferent
  dsimp only
  by_cases ho : orgId = ""
  · simp [ho]
  by_cases hu : userId = ""
  · simp [ho, hu]
  by_cases hs : serverId = ""
  · have hnone (server : Server) : db.server orgId serverId ≠ some server := by
      intro h
      obtain ⟨hmem, hid, -⟩ := Database.server_spec h
      exact db.serverTruthy server hmem (hid.trans hs)
    simp [ho, hu, hs, hs ▸ hnone]
  simp only [ho, hu, hs, if_false, ne_eq, not_false_eq_true, forall_true_left]
  cases hserver : db.server orgId serverId with
  | none => simp
  | some server =>
    cases draftPolicy with
    | some draft => simp
    | none =>
      cases hp : truthy policyId with
      | some id => simp
      | none =>
        simp only [Except.map, Except.ok.injEq, outcome_eq_iff, Option.some.injEq,
          forall_eq', forall_true_left]

namespace Database.Twin

variable {userId orgId id : Id} {r : Role} {db db' : Database}

theorem evaluateWith (h : Twin userId r db db') (permissions : List String)
    (params : EvaluateParams) :
    evaluateWith db' permissions params = evaluateWith db permissions params := by
  unfold Shellius.evaluateWith rulingWith usesBypass
  simp only [h.server, h.accessPolicies, h.matchingPolicies, h.canBypassProdApproval]

theorem rulingOf (h : Twin userId r db db') {s : Server} {pr : Option String} :
    rulingOf db' orgId id s pr = rulingWith db orgId id s pr
      (loadSubject db' id orgId).permissions := by
  rw [rulingOf_eq]
  unfold rulingWith usesBypass
  simp only [h.matchingPolicies, h.canBypassProdApproval]

end Database.Twin

/-! ## Evaluations of many servers by permissions -/

/-- What callers of `evaluateBulk` go by. -/
def bulkOutcomes (rows : List (Id × BulkEvaluation)) : List (Id × Bool × Bool) :=
  rows.map fun row ↦ (row.1, row.2.allowed, row.2.requiresApproval)

theorem evaluateBulk_outcomes {db : Database} {orgId userId : Id} (serverIds : List (Option Id))
    (ho : orgId ≠ "") (hu : userId ≠ "") :
    (evaluateBulk db orgId userId serverIds).map bulkOutcomes =
      .ok ((requestedServers db orgId serverIds).map fun s ↦
        (s.id, (rulingOf db orgId userId s none).outcome)) := by
  rw [evaluateBulk_eq serverIds ho hu]
  simp only [Except.map, bulkOutcomes, List.map_map, Except.ok.injEq]
  refine List.map_congr_left fun s _ ↦ ?_
  have hsame : SameRuling (bulkRuling db orgId userId s) (rulingOf db orgId userId s none) :=
    bulkRuling_same s
  simp only [Function.comp_apply, hsame.allowed, hsame.requiresApproval, Evaluation.outcome]

theorem Database.Twin.evaluateBulk_outcomes_eq_iff {userId orgId : Id} {r : Role}
    {db db' : Database} (h : Database.Twin userId r db db') (serverIds : List (Option Id))
    (ho : orgId ≠ "") (hu : userId ≠ "") :
    (evaluateBulk db orgId userId serverIds).map bulkOutcomes =
        (evaluateBulk db' orgId userId serverIds).map bulkOutcomes ↔
      ∀ s ∈ requestedServers db orgId serverIds, Indifferent db orgId userId s none
        (loadSubject db userId orgId).permissions (loadSubject db' userId orgId).permissions := by
  have hservers : requestedServers db' orgId serverIds = requestedServers db orgId serverIds := by
    unfold requestedServers
    rw [h.servers]
  rw [evaluateBulk_outcomes serverIds ho hu, evaluateBulk_outcomes serverIds ho hu, hservers,
    Except.ok.injEq, List.map_inj_left]
  refine forall₂_congr fun s _ ↦ ?_
  rw [Prod.mk.injEq, h.rulingOf, rulingOf_eq, outcome_eq_iff]
  exact and_iff_right rfl

end Shellius
