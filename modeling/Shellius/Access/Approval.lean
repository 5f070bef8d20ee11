import Shellius.Access.Routing
import Shellius.Access.World

/-!
# Approvals

A request becomes approved in one of three ways: `submit` approves it on the
spot, a reviewer does, or break-glass creates it approved.  On production each
of them takes somebody's leave: `Sanctioned` says whose, and every approval in
every run of the service has it.
-/

namespace Shellius

open Lib

namespace World

variable {cfg : Config} {w₀ w w' : World} {op : Op} {es : List Op} {r r' : AccessRequest}

/-! ## How a request becomes approved -/

def Approves (w w' : World) (r : AccessRequest) : Prop :=
  r ∈ w'.accessRequests ∧ r.status = .approved ∧
    ∀ q ∈ w.accessRequests, q.id = r.id → q.status ≠ .approved

/-- The three ways to become approved. -/
inductive Approval (cfg : Config) (w : World) : Op → AccessRequest → Prop
  | submitted {id : Id} {params : SubmitParams} {s : Submission} {e : Evaluation} :
      checkSubmit w.db params = .ok s → submitEvaluation w.db params s = .ok e →
      e.requiresApproval = false → e.allowed = true →
      Approval cfg w (.submit id params) (approvedRow id w.now params s.principal
        (clampToPolicy params.requestedDuration e.maxTtl))
  | reviewed {params : ReviewParams} {r : AccessRequest} :
      lookup AccessRequest.id params.requestId w.accessRequests = some r →
      checkReviewParams params = .ok .approve → checkReview params r = .ok () →
      canStillApprove w.db r.orgId params.reviewerId = true → r.status = .pending →
      Approval cfg w (.review params) (decideRow params .approve w.now
        (reviewDuration (reviewPolicy w.db r) (askedDuration params r)) r)
  | granted {id : Id} {params : VerifyBreakGlassParams} {r : AccessRequest} :
      Granted cfg.toCrypto w id params r → Approval cfg w (.verifyBreakGlass id params) r

theorem approval_of_step (hk : Keyed w) (hs : step cfg w op = some w') (ha : Approves w w' r) :
    Approval cfg w op r := by
  obtain ⟨hr, hst, hnew⟩ := ha
  cases step_rows hk.requests hs hr with
  | kept hq | detached hq => exact (hnew _ hq rfl hst).elim
  | submitted hid hq =>
    obtain ⟨s, e, hs, he, ⟨-, primary, others, -, rfl⟩ | ⟨hreq, hal, rfl⟩⟩ := submit_cases hq
    · simp [pendingRow] at hst
    · exact .submitted hs he hreq hal
  | reviewed hq hd hq' =>
    rename_i decision q
    obtain ⟨hcheck, hcan, hpending, rfl⟩ := reviewRow_ok hq'
    cases decision with
    | approve => exact .reviewed hq hd hcheck hcan hpending
    | deny => simp [decideRow] at hst
  | revoked => simp [revokeRow] at hst
  | expired | stale => simp [expireRow] at hst
  | linked _ hq hc => exact (hnew _ (lookup_spec hq).1 rfl hst).elim
  | granted _ hg => exact .granted hg

/-! ## Where a pending request comes from -/

def SubmittedTo (cfg : Config) (w₀ : World) (es : List Op) (r : AccessRequest)
    (approvers : List Approver) : Prop :=
  ∃ es₁ es₂ u params s, es = es₁ ++ .submit r.id params :: es₂ ∧
    Run (step cfg) free w₀ es₁ u ∧ checkSubmit u.db params = .ok s ∧
    approvers = submitApprovers u.db params s ∧ r.orgId = params.orgId ∧
    r.requesterId = params.requesterId ∧ r.serverId = params.serverId

theorem SubmittedTo.snoc {approvers : List Approver} (h : SubmittedTo cfg w₀ es r approvers)
    (hid : r'.id = r.id) (ho : r'.orgId = r.orgId) (hq : r'.requesterId = r.requesterId)
    (hs : r'.serverId = r.serverId) : SubmittedTo cfg w₀ (es ++ [op]) r' approvers := by
  obtain ⟨es₁, es₂, u, params, s, rfl, hr, hc, ha, h₁, h₂, h₃⟩ := h
  exact ⟨es₁, es₂ ++ [op], u, params, s, by simp [hid], hr, hc, ha, ho.trans h₁, hq.trans h₂,
    hs.trans h₃⟩

theorem submittedTo_of_pending (h₀ : Initial w₀) (hr : Run (step cfg) free w₀ es w) :
    ∀ r ∈ w.accessRequests, r.status = .pending → ∃ approvers,
      SubmittedTo cfg w₀ es r approvers ∧
        ∀ u, r.reviewerId = some u ∨ u ∈ r.approvers → u ∈ approvers := by
  induction hr with
  | nil => simp [h₀.accessRequests]
  | snoc hrun hs _ ih =>
    intro r' hr' hst
    have hkey := h₀.keyed.run hrun
    cases step_rows hkey.requests hs hr' with
    | kept hr =>
      obtain ⟨as, has, hmem⟩ := ih _ hr hst
      exact ⟨as, has.snoc rfl rfl rfl rfl, hmem⟩
    | detached hr =>
      obtain ⟨as, has, hmem⟩ := ih _ hr hst
      refine ⟨as, has.snoc rfl rfl rfl rfl, fun u hu ↦ hmem u (hu.imp ?_ ?_)⟩
      · exact fun h ↦ (Option.filter_eq_some_iff.mp h).1
      · exact List.mem_of_mem_filter
    | submitted _ hq =>
      obtain ⟨s, e, hc, -, ⟨-, primary, others, happ, rfl⟩ | ⟨-, -, rfl⟩⟩ := submit_cases hq
      · refine ⟨_, ⟨_, [], _, _, s, rfl, hrun, hc, rfl, rfl, rfl, rfl⟩, fun u hu ↦ ?_⟩
        rw [happ]
        rcases hu with hu | hu
        · rw [← Option.some.inj hu]
          exact List.mem_cons_self
        · exact hu
      · simp [approvedRow] at hst
    | reviewed _ _ hq' =>
      obtain ⟨-, -, -, rfl⟩ := reviewRow_ok hq'
      exact (decideRow_ne_pending hst).elim
    | revoked => simp [revokeRow] at hst
    | expired | stale => simp [expireRow] at hst
    | linked _ hq =>
      obtain ⟨as, has, hmem⟩ := ih _ (lookup_spec hq).1 hst
      exact ⟨as, has.snoc rfl rfl rfl rfl, hmem⟩
    | granted _ hg =>
      obtain ⟨_, _, _, _, -, rfl⟩ := hg
      simp [breakGlassRow] at hst

/-! ## Production -/

/-- The request is for a server that is a production server at the time. -/
def OnProd (w : World) (r : AccessRequest) : Prop :=
  ∃ server ∈ w.db.servers, server.id = r.serverId ∧ server.environment = .prod

/-- What allows the approval of a request on production, after a run from `w₀`
to `w`. -/
inductive Sanctioned (cfg : Config) (w₀ : World) (es : List Op) (w : World) :
    Op → AccessRequest → Prop
  | /-- An approver from the set computed at submission, still an active user of the
    organization and not the requester. -/
    reviewed {params : ReviewParams} {r : AccessRequest} {u : User} {approvers : List Approver} :
      u ∈ w.db.users → r.reviewerId = some u.id → u.orgId = r.orgId → u.status = .active →
      u.deletedAt = none → u.id ≠ r.requesterId → SubmittedTo cfg w₀ es r approvers →
      u.id ∈ approvers → Sanctioned cfg w₀ es w (.review params) r
  | /-- The requester's `access.prod_bypass`, while the organization allows it. -/
    bypassed {id : Id} {params : SubmitParams} {r : AccessRequest} : r.id = id →
      "access.prod_bypass" ∈ (loadSubject w.db r.requesterId r.orgId).permissions →
      isProdBypassEnabled w.db r.orgId = true → Sanctioned cfg w₀ es w (.submit id params) r
  | brokeGlass {id : Id} {params : VerifyBreakGlassParams} {r : AccessRequest} {invoker : User}
      {payload : Challenge} {server : Server} {p : AccessPolicy} : r.breakGlass = true →
      w.challenges.get w.now params.challengeId = some payload →
      activeUser w.db r.orgId r.requesterId = some invoker →
      (verifyFactor cfg.toCrypto w.now w.userTokens invoker payload.method params.code).1 = true →
      w.db.server r.orgId r.serverId = some server →
      p ∈ applying w.db r.orgId r.requesterId server none .allow → p.isBreakGlass = true →
      applying w.db r.orgId r.requesterId server none .deny = [] →
      Sanctioned cfg w₀ es w (.verifyBreakGlass id params) r

theorem exists_of_canStillApprove {db : Database} {orgId reviewerId : Id}
    (h : canStillApprove db orgId reviewerId = true) :
    ∃ u ∈ db.users, u.id = reviewerId ∧ u.orgId = orgId ∧ u.status = .active ∧
      u.deletedAt = none := by
  obtain ⟨u, hu, hp⟩ := List.any_eq_true.mp h
  exact ⟨u, hu, of_decide_eq_true hp⟩

theorem checkReview_ok {params : ReviewParams} (h : checkReview params r = .ok ()) :
    r.reviewerId = some params.reviewerId ∨ params.reviewerId ∈ r.approvers := by
  unfold checkReview at h
  split at h
  · cases h
  · rename_i hno
    exact not_not.mp hno

theorem sanctioned_of_approval (h₀ : Initial w₀) (hr : Run (step cfg) free w₀ es w)
    (ha : Approval cfg w op r) (hprod : OnProd w r) : Sanctioned cfg w₀ es w op r := by
  obtain ⟨server, hmem, hid, henv⟩ := hprod
  cases ha with
  | submitted hs he hreq hal =>
    rename_i id params s e
    have hc := checkSubmit_ok hs
    obtain ⟨hsm, hsid, -⟩ := Database.server_spec hc.server
    obtain rfl : server = s.server :=
      List.inj_on_of_nodup_map w.db.serverKey hmem hsm (hid.trans hsid.symm)
    obtain ⟨-, -, -, server, hserver, hruled⟩ := evaluate_eq_ok_iff.mp he
    obtain rfl : s.server = server := Option.some.inj (hc.server.symm.trans hserver)
    obtain ⟨hperm, hswitch⟩ :=
      canBypassProdApproval_eq_true.mp (hruled.canBypass henv hal hreq)
    exact .bypassed rfl hperm hswitch
  | reviewed hq hd hcheck hcan hpending =>
    rename_i params q
    obtain ⟨hqm, -⟩ := lookup_spec hq
    obtain ⟨u, hu, hui, huo, hus, hud⟩ := exists_of_canStillApprove hcan
    obtain ⟨approvers, hsub, hin⟩ := submittedTo_of_pending h₀ hr q hqm hpending
    have huin : u.id ∈ approvers := hui ▸ hin _ (checkReview_ok hcheck)
    have hne : u.id ≠ q.requesterId := by
      obtain ⟨_, _, _, params', _, -, -, -, rfl, -, hreq, -⟩ := hsub
      exact hreq ▸ ne_of_mem_resolveApprovers huin
    exact .reviewed hu (congrArg some hui.symm) huo hus hud hne hsub huin
  | granted hg =>
    rename_i id params
    obtain ⟨payload, invoker, server, policy, hg, rfl⟩ := hg
    obtain ⟨hinv, hserver, -, hpolicy, -⟩ := recheckBreakGlass_ok hg.recheck
    obtain ⟨hdeny, hlead⟩ := (findBreakGlassPolicy_eq_some hserver).mp hpolicy
    obtain ⟨hp, hbg⟩ := List.mem_filter.mp hlead.mem
    exact .brokeGlass rfl hg.challenge hinv hg.factor hserver hp hbg hdeny

/-- What a run of the service from `w₀` may rely on. -/
structure ProdReviewed (cfg : Config) (w₀ : World) (es : List Op) (w : World) : Prop where
  /-- Whatever the next step approves on production is sanctioned. -/
  sanctioned : ∀ op w' r, step cfg w op = some w' → Approves w w' r → OnProd w r →
    Sanctioned cfg w₀ es w op r
  /-- Whatever is approved was approved by a step of the run. -/
  approved : ∀ r ∈ w.accessRequests, r.status = .approved → ∃ es₁ op es₂ u u' r₀,
    es = es₁ ++ op :: es₂ ∧ Run (step cfg) free w₀ es₁ u ∧ step cfg u op = some u' ∧
      Approves u u' r₀ ∧ r₀.id = r.id

theorem approves_or_approved (hr : r ∈ w'.accessRequests) (hst : r.status = .approved) :
    (∃ q ∈ w.accessRequests, q.id = r.id ∧ q.status = .approved) ∨ Approves w w' r := by
  by_cases h : ∃ q ∈ w.accessRequests, q.id = r.id ∧ q.status = .approved
  · exact .inl h
  · exact .inr ⟨hr, hst, fun q hq hid hq' ↦ h ⟨q, hq, hid, hq'⟩⟩

theorem approved_by_step (h₀ : Initial w₀) (hr : Run (step cfg) free w₀ es w) :
    ∀ r ∈ w.accessRequests, r.status = .approved → ∃ es₁ op es₂ u u' r₀,
      es = es₁ ++ op :: es₂ ∧ Run (step cfg) free w₀ es₁ u ∧ step cfg u op = some u' ∧
        Approves u u' r₀ ∧ r₀.id = r.id := by
  induction hr with
  | nil => simp [h₀.accessRequests]
  | @snoc es t u op hrun hs _ ih =>
    intro r hr hst
    rcases approves_or_approved hr hst with ⟨q, hq, hid, hqs⟩ | ha
    · obtain ⟨es₁, op', es₂, v, v', r₀, rfl, hv, hv', ha, hr₀⟩ := ih q hq hqs
      exact ⟨es₁, op', es₂ ++ [op], v, v', r₀, by simp, hv, hv', ha, hr₀.trans hid⟩
    · exact ⟨es, op, [], t, u, r, rfl, hrun, hs, ha, rfl⟩

/-- **Production is never reached unreviewed**, in any run of the service, over
any organization that changes in any way meanwhile. -/
theorem prod_reviewed (h₀ : Initial w₀) (hr : Run (step cfg) free w₀ es w) :
    ProdReviewed cfg w₀ es w where
  sanctioned _ _ _ hs ha hprod :=
    sanctioned_of_approval h₀ hr (approval_of_step (h₀.keyed.run hr) hs ha) hprod
  approved := approved_by_step h₀ hr

def prodOrg : Database where
  users := [ana, { id := "eve", orgId := "org" }]
  servers :=
    [{ id := "srv"
       orgId := "org"
       customerId := "acme"
       environment := .prod
       provisionStatus := "provisioned" }]
  accessPolicies := [{ evePolicy with allowedPrincipals := [] }]

def prodWorld : World := { now := 0, db := prodOrg }

def anaAsksForProd : Op :=
  .submit "req"
    { orgId := "org"
      requesterId := "ana"
      serverId := "srv"
      reason := "patching"
      requestedDuration := 3600 }

def eveApproves : Op :=
  .review { requestId := "req", reviewerId := "eve", decision := some .approve }

/-- Ana asks and waits for Eve, and once Eve has approved the promise still
holds. -/
theorem prod_reviewed_eve : Initial prodWorld ∧ ∃ w : World,
    w.accessRequests.map (fun r ↦ (r.status, r.reviewerId)) = [(.approved, some "eve")] ∧
    ProdReviewed plainConfig prodWorld [anaAsksForProd, eveApproves] w := by
  have h₀ : Initial prodWorld := ⟨rfl, rfl⟩
  have h : exec (step plainConfig) prodWorld [anaAsksForProd, eveApproves] = some _ := rfl
  exact ⟨h₀, _, rfl, prod_reviewed h₀ (run_of_exec h)⟩

end World

end Shellius
