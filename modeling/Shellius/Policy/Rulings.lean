import Shellius.Policy.Evaluate

/-!
# What the policies of an organization say

The specification `policyService` is meant to compute, in terms of the policy
table alone: which policies apply to a user and a server, and which of them
leads, namely the first one of least priority number.  `Ruled` lists the answers
an organization-wide evaluation may give and when it gives them;
`evaluate_eq_ok_iff` says that `evaluate` gives exactly these.
-/

namespace Shellius

open Lib

theorem principalMatches_some {server : Server} {r : String} {p : AccessPolicy} :
    principalMatches server (some r) p ↔
      r = "" ∨ p.allowedPrincipals = [] ∨ server.authMode = .credential ∨
        r ∈ p.allowedPrincipals := by
  by_cases hr : r = "" <;> simp [principalMatches, truthy, hr]

/-! ## Policies that apply -/

/-- A policy of the organization that names the user, targets the server and
lists the principal, if one is asked for. -/
def applies (db : Database) (orgId userId : Id) (server : Server)
    (requestedPrincipal : Option String) (p : AccessPolicy) : Bool :=
  concerns orgId userId (resolveUserGroupIds db userId orgId) (loadSubject db userId orgId).roleKeys
      p &&
    (targetMatches server server.id p && principalMatches server requestedPrincipal p)

/-- The policies of one effect that apply, in table order. -/
def applying (db : Database) (orgId userId : Id) (server : Server)
    (requestedPrincipal : Option String) (effect : PolicyEffect) : List AccessPolicy :=
  db.accessPolicies.filter fun p ↦
    applies db orgId userId server requestedPrincipal p && decide (p.effect = effect)

/-- The policy of one effect that leads: the first of least priority number. -/
def Leads (db : Database) (orgId userId : Id) (server : Server)
    (requestedPrincipal : Option String) (effect : PolicyEffect) (p : AccessPolicy) : Prop :=
  FirstMin AccessPolicy.priority (applying db orgId userId server requestedPrincipal effect) p

section

variable {db : Database} {orgId userId : Id} {server : Server} {pr : Option String}
  {effect : PolicyEffect} {p q : AccessPolicy}

theorem mem_applying :
    p ∈ applying db orgId userId server pr effect ↔
      p ∈ db.accessPolicies ∧ applies db orgId userId server pr p ∧ p.effect = effect := by
  simp [applying]

namespace Leads

theorem mem (h : Leads db orgId userId server pr effect p) : p ∈ db.accessPolicies :=
  (mem_applying.mp (FirstMin.mem h)).1

theorem applies (h : Leads db orgId userId server pr effect p) :
    applies db orgId userId server pr p := (mem_applying.mp (FirstMin.mem h)).2.1

theorem unique (hp : Leads db orgId userId server pr effect p)
    (hq : Leads db orgId userId server pr effect q) : p = q := FirstMin.unique hp hq

theorem of_principal (h : Leads db orgId userId server none effect p)
    (hp : principalMatches server pr p) : Leads db orgId userId server pr effect p := by
  have he : applying db orgId userId server pr effect =
      (applying db orgId userId server none effect).filter (principalMatches server pr) := by
    rw [applying, applying, List.filter_filter]
    refine List.filter_congr fun q _ ↦ ?_
    simp [Shellius.applies, principalMatches, Bool.and_comm, Bool.and_assoc]
  rw [Leads, he]
  exact FirstMin.filter h hp

theorem principalMatches (h : Leads db orgId userId server pr effect p) :
    principalMatches server pr p := by
  have := h.applies
  simp only [Shellius.applies, Bool.and_eq_true] at this
  exact this.2.2

end Leads

/-! ## What the code computes -/

theorem matchingPolicies_eq :
    matchingPolicies db orgId userId server server.id pr =
      sortOn (fun p ↦ toLex (p.effect.rank, p.priority))
        (db.accessPolicies.filter (applies db orgId userId server pr)) := by
  rw [matchingPolicies, filterPolicies, loadMatchingPolicies, sortOn_filter, List.filter_filter]
  congr 1
  exact List.filter_congr fun p _ ↦ Bool.and_comm _ _

theorem filter_matchingPolicies (effect : PolicyEffect) :
    (matchingPolicies db orgId userId server server.id pr).filter (fun p ↦ p.effect = effect) =
      sortOn AccessPolicy.priority (applying db orgId userId server pr effect) := by
  have hl : (db.accessPolicies.filter fun p ↦
      decide (p.effect = effect) && applies db orgId userId server pr p) =
      applying db orgId userId server pr effect :=
    List.filter_congr fun p _ ↦ Bool.and_comm _ _
  rw [matchingPolicies_eq, sortOn_filter, List.filter_filter, hl]
  refine sortOn_congr _ _ fun a ha b hb ↦ ?_
  simp [Prod.Lex.toLex_le_toLex, (mem_applying.mp ha).2.2, (mem_applying.mp hb).2.2]

theorem bestAllow_eq_some :
    bestAllow (matchingPolicies db orgId userId server server.id pr) = some p ↔
      Leads db orgId userId server pr .allow p := by
  rw [bestAllow, filter_matchingPolicies, sortOn_sortOn, head?_sortOn]; rfl

theorem bestAllow_eq_none :
    bestAllow (matchingPolicies db orgId userId server server.id pr) = none ↔
      applying db orgId userId server pr .allow = [] := by
  rw [bestAllow, filter_matchingPolicies, sortOn_sortOn, head?_sortOn_eq_none]

theorem findDeny_eq_some :
    findDeny (matchingPolicies db orgId userId server server.id pr) = some p ↔
      Leads db orgId userId server pr .deny p := by
  rw [findDeny, ← List.head?_filter, filter_matchingPolicies, head?_sortOn]; rfl

theorem findDeny_eq_none :
    findDeny (matchingPolicies db orgId userId server server.id pr) = none ↔
      applying db orgId userId server pr .deny = [] := by
  rw [findDeny, ← List.head?_filter, filter_matchingPolicies, head?_sortOn_eq_none]

end

/-! ## Rulings -/

/-- The user holds `access.bypass_policies` and may use it on this server. -/
def mayBypass (db : Database) (orgId userId : Id) (server : Server) : Bool :=
  let subject := loadSubject db userId orgId
  decide ("access.bypass_policies" ∈ subject.permissions) &&
    (!decide (server.environment = .prod) || canBypassProdApproval db orgId subject.permissions)

/-- The answers of an organization-wide evaluation. -/
inductive Ruled (db : Database) (orgId userId : Id) (server : Server)
    (requestedPrincipal : Option String) : Evaluation → Prop
  | denied {p : AccessPolicy} :
      Leads db orgId userId server requestedPrincipal .deny p →
      Ruled db orgId userId server requestedPrincipal (deniedBy p)
  | bypass :
      applying db orgId userId server requestedPrincipal .deny = [] →
      mayBypass db orgId userId server →
      Ruled db orgId userId server requestedPrincipal
        { allowed := true
          requiresApproval := false
          autoApprove := true
          principals := (truthy requestedPrincipal).toList
          maxTtl := 86400
          reason := some
            (if server.environment = .prod then "policy bypass (prod)" else "policy bypass")
          prodBypass := decide (server.environment = .prod) }
  | /-- Only ALLOW policies apply, and `p` leads them. -/
    governed {p : AccessPolicy} :
      applying db orgId userId server requestedPrincipal .deny = [] →
      ¬ mayBypass db orgId userId server →
      Leads db orgId userId server requestedPrincipal .allow p →
      Ruled db orgId userId server requestedPrincipal
        { allowed := true
          requiresApproval := if server.environment = .prod then
              !canBypassProdApproval db orgId (loadSubject db userId orgId).permissions
            else p.requireApproval
          autoApprove := p.autoApprove
          principals := p.allowedPrincipals
          maxTtl := p.maxSessionDuration
          policyId := some p.id
          prodBypass := decide (server.environment = .prod) &&
            canBypassProdApproval db orgId (loadSubject db userId orgId).permissions }
  | unmatched :
      applying db orgId userId server requestedPrincipal .deny = [] →
      applying db orgId userId server requestedPrincipal .allow = [] →
      ¬ mayBypass db orgId userId server →
      Ruled db orgId userId server requestedPrincipal
        { allowed := false
          requiresApproval := false
          autoApprove := false
          reason := some "No matching policy" }

section

variable {db : Database} {orgId userId : Id} {server : Server} {pr : Option String}
  {e e' : Evaluation} {p : AccessPolicy}

theorem not_leads_of_applying_eq_nil {effect : PolicyEffect}
    (h : applying db orgId userId server pr effect = []) :
    ¬ Leads db orgId userId server pr effect p := fun hp ↦ by
  have := FirstMin.mem hp
  simp [h] at this

theorem Ruled.unique (h : Ruled db orgId userId server pr e)
    (h' : Ruled db orgId userId server pr e') : e = e' := by
  cases h with
  | denied hp =>
    cases h' with
    | denied hq => rw [hp.unique hq]
    | bypass hd | governed hd | unmatched hd => exact (not_leads_of_applying_eq_nil hd hp).elim
  | bypass hd hb =>
    cases h' with
    | denied hq => exact (not_leads_of_applying_eq_nil hd hq).elim
    | bypass => rfl
    | governed _ hn | unmatched _ _ hn => exact (hn hb).elim
  | governed hd hn hp =>
    cases h' with
    | denied hq => exact (not_leads_of_applying_eq_nil hd hq).elim
    | bypass _ hb => exact (hn hb).elim
    | governed _ _ hq => rw [hp.unique hq]
    | unmatched _ ha => exact (not_leads_of_applying_eq_nil ha hp).elim
  | unmatched hd ha hn =>
    cases h' with
    | denied hq => exact (not_leads_of_applying_eq_nil hd hq).elim
    | bypass _ hb => exact (hn hb).elim
    | governed _ _ hq => exact (not_leads_of_applying_eq_nil ha hq).elim
    | unmatched => rfl

/-- The ruling the two organization-wide branches of `evaluate` compute. -/
def rulingOf (db : Database) (orgId userId : Id) (server : Server) (pr : Option String) :
    Evaluation :=
  let matching := matchingPolicies db orgId userId server server.id pr
  if mayBypass db orgId userId server then
    evaluateBypass matching (server.environment = .prod) pr
  else
    evaluateOrgWide matching (server.environment = .prod)
      (canBypassProdApproval db orgId (loadSubject db userId orgId).permissions)

theorem ruled_rulingOf : Ruled db orgId userId server pr (rulingOf db orgId userId server pr) := by
  by_cases hb : mayBypass db orgId userId server
  · rw [rulingOf, if_pos hb]
    cases hd : findDeny (matchingPolicies db orgId userId server server.id pr) with
    | some d =>
      simp only [evaluateBypass, hd]
      exact .denied (findDeny_eq_some.mp hd)
    | none =>
      simp only [evaluateBypass, hd]
      simpa using Ruled.bypass (findDeny_eq_none.mp hd) hb
  · rw [rulingOf, if_neg hb]
    cases hd : findDeny (matchingPolicies db orgId userId server server.id pr) with
    | some d =>
      simp only [evaluateOrgWide, hd]
      exact .denied (findDeny_eq_some.mp hd)
    | none =>
      cases ha : bestAllow (matchingPolicies db orgId userId server server.id pr) with
      | none =>
        simp only [evaluateOrgWide, hd, ha]
        exact .unmatched (findDeny_eq_none.mp hd) (bestAllow_eq_none.mp ha) hb
      | some p =>
        have := Ruled.governed (findDeny_eq_none.mp hd) hb (bestAllow_eq_some.mp ha)
        by_cases hprod : server.environment = .prod
        · simpa [evaluateOrgWide, hd, ha, hprod] using this
        · simpa [evaluateOrgWide, hd, ha, hprod] using this

/-- Without a policy or a draft of its own, `evaluate` answers with the ruling. -/
theorem evaluate_eq_rulingOf {serverId : Id} (ho : orgId ≠ "") (hu : userId ≠ "")
    (hs : serverId ≠ "") (h : db.server orgId serverId = some server) :
    evaluate db { orgId, userId, serverId, requestedPrincipal := pr } =
      .ok (rulingOf db orgId userId server pr) := by
  obtain ⟨-, rfl, -⟩ := Database.server_spec h
  have hb : ("access.bypass_policies" ∈ (loadSubject db userId orgId).permissions ∧
      (¬ (server.environment = .prod) ∨
        canBypassProdApproval db orgId (loadSubject db userId orgId).permissions = true)) ↔
      mayBypass db orgId userId server := by simp [mayBypass]
  simp only [evaluate, ho, hu, hs, h, rulingOf, if_false, truthy_none, true_and, hb]
  split <;> rfl

/-- `evaluate` answers with the one ruling on the question asked, and refuses
to answer only a malformed question. -/
theorem evaluate_eq_ok_iff {serverId : Id} :
    evaluate db { orgId, userId, serverId, requestedPrincipal := pr } = .ok e ↔
      orgId ≠ "" ∧ userId ≠ "" ∧ serverId ≠ "" ∧
        ∃ server, db.server orgId serverId = some server ∧ Ruled db orgId userId server pr e := by
  constructor
  · intro h
    by_cases ho : orgId = ""
    · simp [evaluate, ho] at h
    by_cases hu : userId = ""
    · simp [evaluate, ho, hu] at h
    by_cases hs : serverId = ""
    · simp [evaluate, ho, hu, hs] at h
    cases hf : db.server orgId serverId with
    | none => simp [evaluate, ho, hu, hs, hf] at h
    | some server =>
      rw [evaluate_eq_rulingOf ho hu hs hf] at h
      obtain rfl := Except.ok.inj h
      exact ⟨ho, hu, hs, server, rfl, ruled_rulingOf⟩
  · rintro ⟨ho, hu, hs, server, hf, hr⟩
    rw [evaluate_eq_rulingOf ho hu hs hf, ruled_rulingOf.unique hr]

theorem Ruled.leads_of_requiresApproval (h : Ruled db orgId userId server pr e)
    (hreq : e.requiresApproval = true) :
    ∃ p, Leads db orgId userId server pr .allow p ∧ e.policyId = some p.id := by
  cases h with
  | denied | bypass | unmatched => simp [deniedBy] at hreq
  | governed _ _ hp => exact ⟨_, hp, rfl⟩

theorem Ruled.canBypass (h : Ruled db orgId userId server pr e) (hprod : server.environment = .prod)
    (hallowed : e.allowed = true) (hreq : e.requiresApproval = false) :
    canBypassProdApproval db orgId (loadSubject db userId orgId).permissions = true := by
  cases h with
  | denied | unmatched => simp [deniedBy] at hallowed
  | bypass _ hb => simpa [mayBypass, hprod] using (Bool.and_eq_true_iff.mp hb).2
  | governed => simpa [hprod] using hreq

/-! ## The policy behind a request -/

theorem findApproverPolicy_eq_some {serverId : Id} (h : db.server orgId serverId = some server) :
    findApproverPolicy db orgId userId serverId pr = some p ↔
      Leads db orgId userId server pr .allow p := by
  obtain ⟨-, rfl, -⟩ := Database.server_spec h
  simp only [findApproverPolicy, h, bestAllow_eq_some]

theorem findBreakGlassPolicy_eq_some {serverId : Id} (h : db.server orgId serverId = some server) :
    findBreakGlassPolicy db orgId userId serverId = some p ↔
      applying db orgId userId server none .deny = [] ∧
        FirstMin AccessPolicy.priority
          ((applying db orgId userId server none .allow).filter AccessPolicy.isBreakGlass) p := by
  obtain ⟨-, rfl, -⟩ := Database.server_spec h
  have hdeny : ((matchingPolicies db orgId userId server server.id none).any fun p ↦
      p.effect = .deny) = true ↔ applying db orgId userId server none .deny ≠ [] := by
    rw [← not_iff_not, not_not, ← findDeny_eq_none, findDeny, List.find?_eq_none]
    simp
  have hbest : bestAllow ((matchingPolicies db orgId userId server server.id none).filter
      fun p ↦ p.isBreakGlass) = some p ↔
      FirstMin AccessPolicy.priority
        ((applying db orgId userId server none .allow).filter AccessPolicy.isBreakGlass) p := by
    have hc : ((matchingPolicies db orgId userId server server.id none).filter
        fun p ↦ p.isBreakGlass).filter (fun p ↦ p.effect = .allow) =
        ((matchingPolicies db orgId userId server server.id none).filter
          fun p ↦ p.effect = .allow).filter AccessPolicy.isBreakGlass := by
      rw [List.filter_filter, List.filter_filter]
      exact List.filter_congr fun p _ ↦ Bool.and_comm _ _
    rw [bestAllow, hc, filter_matchingPolicies, sortOn_filter, sortOn_sortOn, head?_sortOn]
  simp only [findBreakGlassPolicy, h]
  split
  · rename_i hd
    exact ⟨fun hf ↦ (Option.some_ne_none p hf.symm).elim, fun hf ↦ (hdeny.mp hd hf.1).elim⟩
  · rename_i hd
    rw [hbest]
    exact ⟨fun hf ↦ ⟨not_not.mp fun hne ↦ hd (hdeny.mpr hne), hf⟩, fun hf ↦ hf.2⟩

end

/-! ## More and fewer policies -/

section

variable {db : Database} {orgId userId serverId : Id} {server : Server} {pr : Option String}
  {e e' : Evaluation} {p : AccessPolicy} {policies : List AccessPolicy}

theorem applying_eq_nil {effect : PolicyEffect} : applying db orgId userId server pr effect = [] ↔
    ∀ p ∈ db.accessPolicies, applies db orgId userId server pr p → p.effect ≠ effect := by
  simp only [List.eq_nil_iff_forall_not_mem, mem_applying, not_and]

/-- One DENY policy outweighs every ALLOW policy and every bypass. -/
theorem Ruled.allowed_iff (h : Ruled db orgId userId server pr e) : e.allowed = true ↔
    (∀ p ∈ db.accessPolicies, applies db orgId userId server pr p → p.effect ≠ .deny) ∧
      (mayBypass db orgId userId server = true ∨
        ∃ p ∈ db.accessPolicies, applies db orgId userId server pr p ∧ p.effect = .allow) := by
  rw [← applying_eq_nil]
  cases h with
  | denied hp =>
    exact ⟨fun h ↦ (Bool.false_ne_true h).elim, fun h ↦ (not_leads_of_applying_eq_nil h.1 hp).elim⟩
  | bypass hd hb => exact ⟨fun _ ↦ ⟨hd, .inl hb⟩, fun _ ↦ rfl⟩
  | governed hd _ hp =>
    exact ⟨fun _ ↦ ⟨hd, .inr ⟨_, mem_applying.mp (FirstMin.mem hp)⟩⟩, fun _ ↦ rfl⟩
  | unmatched _ ha hn =>
    refine ⟨fun h ↦ (Bool.false_ne_true h).elim, ?_⟩
    rintro ⟨-, hb | ⟨p, hp, happlies, heffect⟩⟩
    · exact (hn hb).elim
    · exact (applying_eq_nil.mp ha p hp happlies heffect).elim

/-- **With more DENY and fewer ALLOW policies nobody is let in who was not let in before.** -/
theorem evaluate_antitone (hkey : (policies.map AccessPolicy.id).Nodup)
    (hdeny : ∀ p ∈ db.accessPolicies, p.effect = .deny → p ∈ policies)
    (hallow : ∀ p ∈ policies, p.effect = .allow → p ∈ db.accessPolicies)
    (h' : evaluate { db with accessPolicies := policies, policyKey := hkey }
      { orgId, userId, serverId, requestedPrincipal := pr } = .ok e')
    (hallowed : e'.allowed = true) :
    ∃ e, evaluate db { orgId, userId, serverId, requestedPrincipal := pr } = .ok e ∧
      e.allowed = true := by
  obtain ⟨ho, hu, hs, server, hserver, hruled⟩ := evaluate_eq_ok_iff.mp h'
  obtain ⟨hnone, hsome⟩ := hruled.allowed_iff.mp hallowed
  refine ⟨_, evaluate_eq_ok_iff.mpr ⟨ho, hu, hs, server, hserver, ruled_rulingOf⟩,
    ruled_rulingOf.allowed_iff.mpr ⟨fun p hp happlies heffect ↦ ?_, ?_⟩⟩
  · exact hnone p (hdeny p hp heffect) happlies heffect
  · exact hsome.imp id fun ⟨p, hp, happlies, heffect⟩ ↦ ⟨p, hallow p hp heffect, happlies, heffect⟩

def policyFor (id : Id) (effect : PolicyEffect) (userId : Id) : AccessPolicy where
  id := id
  orgId := "org"
  effect := effect
  maxSessionDuration := 3600
  subjects := [⟨.user, userId⟩]

/-- One of the two policies that let Ana in goes, and one comes that keeps Olga out. -/
theorem evaluate_antitone_ana : ∃ e,
    evaluate
      { servers := [{ id := "dev", orgId := "org", customerId := "acme" }]
        accessPolicies := [policyFor "p1" .allow "ana", policyFor "p2" .allow "ana"] }
      { orgId := "org", userId := "ana", serverId := "dev" } = .ok e ∧ e.allowed = true :=
  evaluate_antitone
    (show ([policyFor "p1" .allow "ana", policyFor "p3" .deny "olga"].map AccessPolicy.id).Nodup
      from by decide) (by simp [policyFor]) (by simp [policyFor]) rfl (by decide)

end

end Shellius
