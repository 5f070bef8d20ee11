import Shellius.Policy.Rulings
import Shellius.Access.Request

/-!
# Routing a request to its approvers

`submit` lets `evaluate` say that a request needs approval and in the name of
which policy, then asks `findApproverPolicy` for the policy to route it by, and
`review` asks the latter again to clamp the duration.  The two selections agree
as long as they look at the same principal, or the principal makes no
difference.
-/

namespace Shellius

open Lib

variable {db : Database} {params : SubmitParams} {s : Submission} {e : Evaluation} {pid : Id}
  {p : AccessPolicy}

theorem findApproverPolicy_truthy (db : Database) (orgId userId serverId : Id)
    (pr : Option String) :
    findApproverPolicy db orgId userId serverId (truthy pr) =
      findApproverPolicy db orgId userId serverId pr := by
  simp [findApproverPolicy, matchingPolicies, filterPolicies, principalMatches]

theorem resolvePrincipal_rdp_ne_empty {server : Server} {requester : User} {principal : String}
    (hrdp : params.protocol = .rdp)
    (h : resolvePrincipal db params server requester = .ok principal) : principal ≠ "" := by
  simp only [resolvePrincipal, hrdp, Except.ok.injEq] at h
  rw [List.headD_eq_head?_getD] at h
  subst h
  cases hc : (List.filterMap truthy [if server.authMode = .credential then
      (db.credential server).map Credential.username else none, server.rdpUsername,
      params.requestedPrincipal]).head? with
  | none => simp
  | some a =>
    obtain ⟨o, -, ho⟩ := List.mem_filterMap.mp (List.mem_of_head? hc)
    exact (truthy_eq_some.mp ho).2

/-- The policy in whose name the evaluation asked for approval is the one that
routes the request: its approvers (or the manager, if it has none) are the
approvers of the row, and `review` would clamp by it as well. -/
def RoutedByAuthorizer (db : Database) (params : SubmitParams) (s : Submission) (pid : Id) :
    Prop :=
  ∃ p, p.id = pid ∧ submitApproverPolicy db params s = some p ∧
    ∀ now id r, submit db now id params = .ok r →
      r.approvers = resolveApprovers db params.orgId params.requesterId (some p)
          (db.manager s.requester) ∧
        reviewPolicy db r = some p

/-- The account the request logs in with does not decide which policy leads:
there is none for policies to filter on, or it is the one they were evaluated
with, or the policy that leads without it admits it. -/
def AccountIsNeutral (db : Database) (params : SubmitParams) (s : Submission) : Prop :=
  params.protocol = .ssh ∨ s.server.authMode = .credential ∨
    ∀ p, Leads db params.orgId params.requesterId s.server none .allow p →
      p.allowedPrincipals = [] ∨ s.principal ∈ p.allowedPrincipals

theorem AccountIsNeutral.leads (h : AccountIsNeutral db params s)
    (hp : Leads db params.orgId params.requesterId s.server
      (evaluatedPrincipal params.protocol s.principal) .allow p) :
    Leads db params.orgId params.requesterId s.server (some s.principal) .allow p := by
  cases hprot : params.protocol with
  | ssh => simpa [evaluatedPrincipal, hprot] using hp
  | rdp =>
    simp only [evaluatedPrincipal, hprot] at hp
    refine hp.of_principal (principalMatches_some.mpr ?_)
    rcases h with h | h | h
    · simp [hprot] at h
    · exact .inr (.inr (.inl h))
    · rcases h p hp with h | h
      · exact .inr (.inl h)
      · exact .inr (.inr (.inr h))

/-- Whatever `submit` creates keeps the server, the requester and the account it
was checked for. -/
theorem reviewPolicy_submit {now : Millis} {id : Id} {r : AccessRequest}
    (hs : checkSubmit db params = .ok s) (h : submit db now id params = .ok r) :
    reviewPolicy db r = submitApproverPolicy db params s := by
  obtain ⟨s', e, hs', -, hrow⟩ := submit_cases h
  obtain rfl : s = s' := Except.ok.inj (hs.symm.trans hs')
  rcases hrow with ⟨-, primary, others, -, rfl⟩ | ⟨-, -, rfl⟩ <;>
    exact findApproverPolicy_truthy ..

/-- Approval is routed by the policy that authorised the request exactly if the
account the request logs in with is neutral. -/
theorem routedByAuthorizer_iff (hs : checkSubmit db params = .ok s)
    (he : submitEvaluation db params s = .ok e) (hreq : e.requiresApproval = true)
    (hpid : e.policyId = some pid) :
    RoutedByAuthorizer db params s pid ↔ AccountIsNeutral db params s := by
  have hc := checkSubmit_ok hs
  obtain ⟨-, -, -, server, hserver, hr⟩ := evaluate_eq_ok_iff.mp he
  obtain rfl : s.server = server := Option.some.inj (hc.server.symm.trans hserver)
  obtain ⟨p, hp, hpid'⟩ := hr.leads_of_requiresApproval hreq
  obtain rfl : p.id = pid := Option.some.inj (hpid'.symm.trans hpid)
  constructor
  · rintro ⟨q, hq, hfind, -⟩
    have hlead := (findApproverPolicy_eq_some hc.server).mp hfind
    obtain rfl : q = p := Database.policy_ext hlead.mem hp.mem hq
    cases hprot : params.protocol with
    | ssh => exact .inl hprot
    | rdp =>
      simp only [evaluatedPrincipal, hprot] at hp
      rcases principalMatches_some.mp hlead.principalMatches with h | h | h | h
      · exact absurd h (resolvePrincipal_rdp_ne_empty hprot hc.principal)
      · exact .inr (.inr fun q' hq' ↦ .inl (hq'.unique hp ▸ h))
      · exact .inr (.inl h)
      · exact .inr (.inr fun q' hq' ↦ .inr (hq'.unique hp ▸ h))
  · intro hn
    have hfind : submitApproverPolicy db params s = some p :=
      (findApproverPolicy_eq_some hc.server).mpr (hn.leads hp)
    refine ⟨p, rfl, hfind, fun now id r h ↦ ⟨?_, (reviewPolicy_submit hs h).trans hfind⟩⟩
    obtain ⟨s', e', hs', he', hrow⟩ := submit_cases h
    obtain rfl : s = s' := Except.ok.inj (hs.symm.trans hs')
    obtain rfl : e = e' := Except.ok.inj (he.symm.trans he')
    rcases hrow with ⟨-, primary, others, happ, rfl⟩ | ⟨hno, -, -⟩
    · simpa [pendingRow, submitApprovers, hfind] using happ.symm
    · simp [hreq] at hno

/-! ### A Windows server -/

/-- A production server reached over RDP as `Administrator`. -/
def windowsServer : Server where
  id := "win"
  orgId := "org"
  customerId := "acme"
  environment := .prod
  protocol := .rdp
  rdpUsername := some "Administrator"

def ana : User where
  id := "ana"
  orgId := "org"
  managerId := some "max"

/-- A policy that lets Ana in as `ubuntu`, after approval by Eve. -/
def evePolicy : AccessPolicy where
  id := "pol"
  orgId := "org"
  maxSessionDuration := 3600
  allowedPrincipals := ["ubuntu"]
  approverUserIds := ["eve"]
  subjects := [⟨.user, "ana"⟩]

def windowsOrg : Database where
  users := [ana, { id := "max", orgId := "org" }, { id := "eve", orgId := "org" }]
  servers := [windowsServer]
  accessPolicies := [evePolicy]

def windowsRequest (protocol : Protocol) : SubmitParams where
  orgId := "org"
  requesterId := "ana"
  serverId := "win"
  reason := "patching"
  requestedDuration := 600
  requestedPrincipal := some "ubuntu"
  protocol
  callerPermissions := ["access.choose_principal"]

theorem windowsRequest_ssh_routed :
    RoutedByAuthorizer windowsOrg (windowsRequest .ssh) ⟨windowsServer, ana, "ubuntu"⟩ "pol" :=
  (routedByAuthorizer_iff (e := rulingOf windowsOrg "org" "ana" windowsServer (some "ubuntu"))
    rfl rfl rfl rfl).mpr (.inl rfl)

/-- Over RDP the evaluation asks for approval in the name of the policy, but no
policy is found to route the request by, and it goes to Max. -/
theorem windowsRequest_rdp_not_routed :
    ∃ e, checkSubmit windowsOrg (windowsRequest .rdp) =
        .ok ⟨windowsServer, ana, "Administrator"⟩ ∧
      submitEvaluation windowsOrg (windowsRequest .rdp) ⟨windowsServer, ana, "Administrator"⟩ =
        .ok e ∧
      e.requiresApproval = true ∧ e.policyId = some "pol" ∧
      (submit windowsOrg 0 "req" (windowsRequest .rdp)).map AccessRequest.approvers =
        .ok ["max"] ∧
      ¬ RoutedByAuthorizer windowsOrg (windowsRequest .rdp)
        ⟨windowsServer, ana, "Administrator"⟩ "pol" := by
  refine ⟨rulingOf windowsOrg "org" "ana" windowsServer none, rfl, rfl, rfl, rfl, rfl, ?_⟩
  rintro ⟨p, -, hp, -⟩
  have hnone : submitApproverPolicy windowsOrg (windowsRequest .rdp)
      ⟨windowsServer, ana, "Administrator"⟩ = none := rfl
  simp [hnone] at hp

end Shellius
