import Shellius.Access.Request
import Shellius.Lib.Alike
import Shellius.Policy.Twins

/-!
# Submissions with another role for the requester

`submit` evaluates the policies on the permissions of the requester's row, whatever permissions
the caller came with.  A submission therefore goes the same way on twins exactly if the two
permissions that bypass policies and production approval do not decide the evaluation, and do
not stretch the time that is granted either.
-/

namespace Shellius

open Lib

variable {db db' : Database} {now : Millis} {id : Id} {params : SubmitParams} {s : Submission}
  {held kept : List String}

/-- What `submit` asks of the policies. -/
def submitQuestion (params : SubmitParams) (s : Submission) : EvaluateParams where
  orgId := params.orgId
  userId := params.requesterId
  serverId := params.serverId
  requestedPrincipal := evaluatedPrincipal params.protocol s.principal

/-- The rest of `submit`, once the policies have been evaluated. -/
def settle (db : Database) (now : Millis) (id : Id) (params : SubmitParams) (s : Submission)
    (policyResult : Evaluation) : Except ApiError AccessRequest :=
  if policyResult.requiresApproval then
    match submitApprovers db params s with
    | [] => .error ⟨400, "No approver is configured for this server. Assign the requester " ++
        "a manager, or set an approver group/role on the matching policy.", none⟩
    | primary :: others =>
      .ok (pendingRow id now params s.principal primary (primary :: others))
  else if ¬ policyResult.allowed then
    .error ⟨403, "Access denied by policy: " ++ policyResult.reason.getD "undefined", none⟩
  else
    .ok (approvedRow id now params s.principal
      (clampToPolicy params.requestedDuration policyResult.maxTtl))

def submitWith (db : Database) (permissions : List String) (now : Millis) (id : Id)
    (params : SubmitParams) : Except ApiError AccessRequest :=
  checkSubmit db params >>= fun s ↦
    evaluateWith db permissions (submitQuestion params s) >>= settle db now id params s

theorem submit_eq_submitWith (db : Database) (now : Millis) (id : Id) (params : SubmitParams) :
    submit db now id params = submitWith db
      (loadSubject db params.requesterId params.orgId).permissions now id params := by
  have hevaluate (s : Submission) : submitEvaluation db params s =
      evaluateWith db (loadSubject db params.requesterId params.orgId).permissions
        (submitQuestion params s) := evaluate_eq_evaluateWith db (submitQuestion params s)
  unfold submit submitWith
  cases checkSubmit db params with
  | error e => rfl
  | ok s =>
    dsimp only
    rw [hevaluate, ok_bind]
    cases evaluateWith db (loadSubject db params.requesterId params.orgId).permissions
        (submitQuestion params s) with
    | error e => rfl
    | ok e => rfl

/-! ## On twins -/

namespace Database.Twin

variable {userId orgId : Id} {r : Role}

theorem findJitPolicyForUserServer (h : Twin userId r db db') {serverId : Id} :
    findJitPolicyForUserServer db' orgId id serverId =
      findJitPolicyForUserServer db orgId id serverId := by
  unfold Shellius.findJitPolicyForUserServer
  simp only [h.resolveUserGroupIds, h.roleKeys, h.accessPolicies, h.server]

theorem credential (h : Twin userId r db db') (server : Server) :
    db'.credential server = db.credential server := by
  unfold Database.credential
  rw [h.credentials]

theorem resolvePrincipal (h : Twin userId r db db') (server : Server) (requester : User) :
    resolvePrincipal db' params server (holdRole userId r.id requester) =
      resolvePrincipal db params server requester := by
  unfold Shellius.resolvePrincipal
  simp only [h.credential, h.findJitPolicyForUserServer]
  rfl

theorem checkSubmit (h : Twin userId r db db') :
    Alike (fun s s' ↦ s' = { s with requester := holdRole userId r.id s.requester })
      (checkSubmit db params) (checkSubmit db' params) := by
  unfold Shellius.checkSubmit
  rw [h.server, h.user]
  split
  · exact .error _
  split
  · exact .error _
  split
  · exact .error _
  split
  · exact .error _
  split
  · exact .error _
  cases db.server params.orgId params.serverId with
  | none => exact .error _
  | some server =>
    dsimp only
    split
    · exact .error _
    split
    · exact .error _
    cases db.user params.orgId params.requesterId with
    | none => exact .error _
    | some requester =>
      simp only [Option.map_some, h.resolvePrincipal]
      cases Shellius.resolvePrincipal db params server requester with
      | error e => exact .error e
      | ok principal => exact .ok rfl

theorem routedUsers (h : Twin userId r db db') (policy : AccessPolicy) :
    ((routedUsers db' orgId policy).map User.id).filter (fun u ↦ u ≠ userId) =
      ((routedUsers db orgId policy).map User.id).filter (fun u ↦ u ≠ userId) := by
  have hroutes : ∀ u ∈ db.users, u.id ≠ userId →
      routesTo db' policy (holdRole userId r.id u) = routesTo db policy u := by
    intro u hu hne
    unfold routesTo
    rw [h.assignedRole hu hne, h.groupMemberships]
    rfl
  unfold Shellius.routedUsers
  simp only [h.users, List.filter_map, List.map_map, List.filter_filter]
  refine congrArg (List.map _) (List.filter_congr fun u hu ↦ ?_)
  by_cases hne : u.id = userId
  · simp [holdRole, hne]
  · simp only [Function.comp_apply, hroutes u hu hne]
    simp only [holdRole_of_ne hne]

theorem manager (h : Twin userId r db db') (u : User) :
    db'.manager (holdRole userId r.id u) = (db.manager u).map (holdRole userId r.id) := by
  unfold Database.manager
  change (u.managerId.bind fun m ↦ db'.users.find? fun x ↦ x.id = m) = _
  cases u.managerId with
  | none => rfl
  | some m =>
    rw [Option.bind_some, Option.bind_some, h.users, List.find?_map]
    rfl

theorem resolveApprovers (h : Twin userId r db db') (policy : Option AccessPolicy)
    (manager : Option User) :
    resolveApprovers db' orgId userId policy (manager.map (holdRole userId r.id)) =
      resolveApprovers db orgId userId policy manager := by
  have hbyId : (policy.toList.flatMap fun p ↦
      ((Shellius.routedUsers db' orgId p).map User.id).filter fun u ↦ u ≠ userId) =
      policy.toList.flatMap fun p ↦
        ((Shellius.routedUsers db orgId p).map User.id).filter fun u ↦ u ≠ userId := by
    congr 1
    exact funext fun p ↦ h.routedUsers p
  have hmanager : ((manager.map (holdRole userId r.id)).toList.filter fun m ↦ m.id ≠ userId ∧
      db'.users.any fun u ↦ u.id = m.id ∧ u.orgId = orgId ∧ u.status = .active ∧
        u.deletedAt = none).map User.id =
      (manager.toList.filter fun m ↦ m.id ≠ userId ∧
        db.users.any fun u ↦ u.id = m.id ∧ u.orgId = orgId ∧ u.status = .active ∧
          u.deletedAt = none).map User.id := by
    have hlist : (manager.map (holdRole userId r.id)).toList =
        manager.toList.map (holdRole userId r.id) := by
      cases manager <;> rfl
    rw [hlist, h.users]
    simp only [List.filter_map, List.map_map, List.any_map]
    rfl
  unfold Shellius.resolveApprovers
  simp only [hbyId, hmanager]

theorem settle (h : Twin params.requesterId r db db') (e : Evaluation) :
    settle db' now id params { s with requester := holdRole params.requesterId r.id s.requester } e =
      settle db now id params s e := by
  unfold Shellius.settle submitApprovers submitApproverPolicy
  rw [h.findApproverPolicy, h.manager, h.resolveApprovers]

theorem submit (h : Twin params.requesterId r db db') :
    submit db' now id params = submitWith db
      (loadSubject db' params.requesterId params.orgId).permissions now id params := by
  rw [submit_eq_submitWith]
  generalize (loadSubject db' params.requesterId params.orgId).permissions = permissions
  have hcheck : Alike
      (fun s s' ↦ s' = { s with requester := holdRole params.requesterId r.id s.requester })
      (Shellius.checkSubmit db params) (Shellius.checkSubmit db' params) := h.checkSubmit
  unfold submitWith
  generalize Shellius.checkSubmit db params = x at hcheck
  generalize Shellius.checkSubmit db' params = y at hcheck
  cases hcheck with
  | error e => rfl
  | @ok s s' hs =>
    subst hs
    simp only [ok_bind, h.evaluateWith]
    congr 1
    exact funext fun e ↦ h.settle e

end Database.Twin

/-! ## What two sets of permissions are granted -/

/-- Where the two permissions that bypass policies and approval let one set of permissions in
without a policy and the other by one, they are granted the same time. -/
def SameTime (db : Database) (params : SubmitParams) (s : Submission) (held kept : List String) :
    Prop :=
  let pr := evaluatedPrincipal params.protocol s.principal
  applying db params.orgId params.requesterId s.server pr .deny = [] →
    usesBypass db params.orgId s.server held ≠ usesBypass db params.orgId s.server kept →
      ∀ p, Leads db params.orgId params.requesterId s.server pr .allow p →
        clampToPolicy params.requestedDuration 86400 =
          clampToPolicy params.requestedDuration p.maxSessionDuration

/-- The bypass permissions do not decide a submission: it is refused before any policy is looked
at, or they decide neither the ruling nor the time. -/
def SubmitParams.Indifferent (db : Database) (params : SubmitParams) (held kept : List String) :
    Prop :=
  ∀ s, checkSubmit db params = .ok s →
    Shellius.Indifferent db params.orgId params.requesterId s.server
      (evaluatedPrincipal params.protocol s.principal) held kept ∧ SameTime db params s held kept

theorem settle_of_allowed {e : Evaluation} (h : e.outcome = (true, false)) :
    settle db now id params s e = .ok (approvedRow id now params s.principal
      (clampToPolicy params.requestedDuration e.maxTtl)) := by
  obtain ⟨hallowed, hreq⟩ := Prod.mk.inj h
  simp [settle, hallowed, hreq]

theorem settle_ne_of_ne {e : Evaluation} (h : e.outcome ≠ (true, false)) (duration : Int) :
    settle db now id params s e ≠ .ok (approvedRow id now params s.principal duration) := by
  unfold settle
  split
  · split
    · rintro ⟨⟩
    · intro he
      cases congrArg AccessRequest.status (Except.ok.inj he)
  · rename_i hreq
    split
    · rintro ⟨⟩
    · rename_i hallowed
      exact absurd (Prod.ext (not_not.mp hallowed) (eq_false_of_ne_true hreq)) h

theorem approvedRow_inj {principal : String} {d d' : Int}
    (h : approvedRow id now params principal d = approvedRow id now params principal d') : d = d' :=
  Option.some.inj (congrArg AccessRequest.approvedDuration h)

section

variable {orgId userId : Id} {server : Server} {pr : Option String}

theorem rulingWith_congr
    (huses : usesBypass db orgId server held = usesBypass db orgId server kept)
    (hcan : server.environment = .prod →
      canBypassProdApproval db orgId held = canBypassProdApproval db orgId kept) :
    rulingWith db orgId userId server pr held = rulingWith db orgId userId server pr kept := by
  by_cases hprod : server.environment = .prod
  · unfold rulingWith
    rw [huses, hcan hprod]
  · have horg (matching : List AccessPolicy) (c c' : Bool) :
        evaluateOrgWide matching (decide (server.environment = .prod)) c =
          evaluateOrgWide matching (decide (server.environment = .prod)) c' := by
      simp [evaluateOrgWide, hprod]
    unfold rulingWith
    dsimp only
    rw [huses, horg _ _ (canBypassProdApproval db orgId kept)]

theorem rulingWith_congr_of_none (hd : applying db orgId userId server pr .deny = [])
    (ha : applying db orgId userId server pr .allow = [])
    (huses : usesBypass db orgId server held = usesBypass db orgId server kept) :
    rulingWith db orgId userId server pr held = rulingWith db orgId userId server pr kept := by
  cases hb : usesBypass db orgId server held with
  | true => rw [rulingWith_of_bypass hd hb, rulingWith_of_bypass hd (huses.symm.trans hb)]
  | false => rw [rulingWith_of_none hd hb ha, rulingWith_of_none hd (huses.symm.trans hb) ha]

theorem maxTtl_of_allow {p : AccessPolicy} (hd : applying db orgId userId server pr .deny = [])
    (hp : Leads db orgId userId server pr .allow p) :
    (rulingWith db orgId userId server pr held).maxTtl =
      if usesBypass db orgId server held then 86400 else p.maxSessionDuration := by
  cases hb : usesBypass db orgId server held with
  | true => rw [rulingWith_of_bypass hd hb]; rfl
  | false => rw [rulingWith_of_allow hd hb hp]; rfl

theorem outcome_of_differ (hd : applying db orgId userId server pr .deny = [])
    (houtcome : (rulingWith db orgId userId server pr held).outcome =
      (rulingWith db orgId userId server pr kept).outcome)
    (huses : usesBypass db orgId server held ≠ usesBypass db orgId server kept) :
    (rulingWith db orgId userId server pr held).outcome = (true, false) := by
  cases hb : usesBypass db orgId server held with
  | true => rw [rulingWith_of_bypass hd hb]; rfl
  | false =>
    have hb' : usesBypass db orgId server kept = true := by
      cases hb' : usesBypass db orgId server kept with
      | true => rfl
      | false => exact absurd (hb.trans hb'.symm) huses
    rw [houtcome, rulingWith_of_bypass hd hb']
    rfl

theorem outcome_eq_of_iff
    (h : (rulingWith db orgId userId server pr held).outcome = (true, false) ↔
      (rulingWith db orgId userId server pr kept).outcome = (true, false)) :
    (rulingWith db orgId userId server pr held).outcome =
      (rulingWith db orgId userId server pr kept).outcome := by
  by_cases hd : applying db orgId userId server pr .deny = []
  · by_cases ha : applying db orgId userId server pr .allow = []
    · rw [outcome_of_none hd ha, outcome_of_none hd ha] at h ⊢
      have hbool : ∀ b b' : Bool, ((b, false) = (true, false) ↔ (b', false) = (true, false)) →
          (b, false) = (b', false) := by decide
      exact hbool _ _ h
    · obtain ⟨p, hp⟩ := exists_leads ha
      rw [outcome_of_allow hd hp, outcome_of_allow hd hp] at h ⊢
      have hbool : ∀ b b' : Bool, ((true, b) = (true, false) ↔ (true, b') = (true, false)) →
          (true, b) = (true, b') := by decide
      exact hbool _ _ h
  · obtain ⟨p, hp⟩ := exists_leads hd
    rw [rulingWith_of_deny hp, rulingWith_of_deny hp]

end

/-- Two rulings on a submission settle it in the same way exactly if the bypass permissions
decide neither the ruling nor the time. -/
theorem settle_eq_iff :
    settle db now id params s (rulingWith db params.orgId params.requesterId s.server
        (evaluatedPrincipal params.protocol s.principal) held) =
      settle db now id params s (rulingWith db params.orgId params.requesterId s.server
        (evaluatedPrincipal params.protocol s.principal) kept) ↔
      Indifferent db params.orgId params.requesterId s.server
        (evaluatedPrincipal params.protocol s.principal) held kept ∧
      SameTime db params s held kept := by
  generalize hpr : evaluatedPrincipal params.protocol s.principal = pr
  have happroved (permissions : List String) (d : Int)
      (h : settle db now id params s (rulingWith db params.orgId params.requesterId s.server pr
        permissions) = .ok (approvedRow id now params s.principal d)) :
      (rulingWith db params.orgId params.requesterId s.server pr permissions).outcome =
        (true, false) := by
    by_contra hne
    exact settle_ne_of_ne hne d h
  constructor
  · intro h
    have houtcome : (rulingWith db params.orgId params.requesterId s.server pr held).outcome =
        (rulingWith db params.orgId params.requesterId s.server pr kept).outcome :=
      outcome_eq_of_iff ⟨fun ho ↦ happroved kept _ (h.symm.trans (settle_of_allowed ho)),
        fun ho ↦ happroved held _ (h.trans (settle_of_allowed ho))⟩
    refine ⟨outcome_eq_iff.mp houtcome, ?_⟩
    subst hpr
    intro hd huses p hp
    have hheld := outcome_of_differ hd houtcome huses
    rw [settle_of_allowed hheld, settle_of_allowed (houtcome.symm.trans hheld),
      maxTtl_of_allow hd hp, maxTtl_of_allow hd hp] at h
    have htime := approvedRow_inj (Except.ok.inj h)
    cases hb : usesBypass db params.orgId s.server held with
    | true =>
      have hb' : usesBypass db params.orgId s.server kept = false :=
        eq_false_of_ne_true fun hb' ↦ huses (hb.trans hb'.symm)
      simpa [hb, hb'] using htime
    | false =>
      have hb' : usesBypass db params.orgId s.server kept = true := by
        by_contra hb'
        exact huses (hb.trans (eq_false_of_ne_true hb').symm)
      simpa [hb, hb'] using htime.symm
  · rintro ⟨hruling, htime⟩
    by_cases hd : applying db params.orgId params.requesterId s.server pr .deny = []
    · by_cases ha : applying db params.orgId params.requesterId s.server pr .allow = []
      · rw [rulingWith_congr_of_none hd ha ((hruling hd).1 ha)]
      · obtain ⟨p, hp⟩ := exists_leads ha
        by_cases huses : usesBypass db params.orgId s.server held =
            usesBypass db params.orgId s.server kept
        · refine congrArg _ (rulingWith_congr huses fun hprod ↦ ?_)
          have hcan := (hruling hd).2 p hp
          rwa [if_pos hprod] at hcan
        · have houtcome := outcome_eq_iff.mpr hruling
          have hheld := outcome_of_differ hd houtcome huses
          subst hpr
          have hsame := htime hd huses p hp
          rw [settle_of_allowed hheld, settle_of_allowed (houtcome.symm.trans hheld),
            maxTtl_of_allow hd hp, maxTtl_of_allow hd hp]
          have hclamp (b : Bool) :
              clampToPolicy params.requestedDuration (if b then 86400 else p.maxSessionDuration) =
                clampToPolicy params.requestedDuration p.maxSessionDuration := by
            cases b with
            | true => exact hsame
            | false => rfl
          rw [hclamp, hclamp]
    · obtain ⟨p, hp⟩ := exists_leads hd
      rw [rulingWith_of_deny hp, rulingWith_of_deny hp]

theorem submitWith_eq_iff :
    submitWith db held now id params = submitWith db kept now id params ↔
      params.Indifferent db held kept := by
  unfold submitWith SubmitParams.Indifferent
  cases hs : checkSubmit db params with
  | error e => exact iff_of_true rfl fun s h ↦ by cases h
  | ok s =>
    have hchecked := checkSubmit_ok hs
    have hevaluate (permissions : List String) :
        evaluateWith db permissions (submitQuestion params s) =
          .ok (rulingWith db params.orgId params.requesterId s.server
            (evaluatedPrincipal params.protocol s.principal) permissions) := by
      simp [evaluateWith, submitQuestion, hchecked.orgId, hchecked.requesterId,
        hchecked.serverId, hchecked.server]
    simp only [ok_bind, hevaluate, Except.ok.injEq, forall_eq', settle_eq_iff]

end Shellius
