import Shellius.Access.Approval

/-!
# How long an approval lasts

Every approval is made under the limit of a policy, that of break-glass
included, or of the permission to do without.  `submit` keeps to its limit
whatever it is.  `review` looks the policy up once more, with the account, which
the evaluation of an RDP request leaves out; and break-glass grants five minutes
even where the policy allows less.  `run_withinLimit_iff` says which runs stay
within the limits nevertheless.
-/

namespace Shellius

open Lib

/-! ## Durations -/

section

variable {asked maxTtl d : Int} {q : AccessPolicy}

theorem clampToPolicy_le (h : 0 < maxTtl) : clampToPolicy asked maxTtl ≤ maxTtl := by
  rw [clampToPolicy, if_pos h]
  exact min_le_right _ _

/-- With a limit that is one, `review` takes the lesser of the two durations. -/
theorem reviewDuration_some (h : 0 < q.maxSessionDuration) :
    reviewDuration (some q) asked = min asked q.maxSessionDuration := by
  simp only [reviewDuration]
  split <;> omega

theorem breakGlassTtl_le_iff : breakGlassTtl asked maxTtl ≤ maxTtl ↔ 300 ≤ maxTtl := by
  rw [breakGlassTtl, max_le_iff]
  exact ⟨fun h ↦ h.1, fun h ↦ ⟨h, min_le_right _ _⟩⟩

end

namespace World

variable {cfg : Config} {w₀ w w' : World} {op : Op} {es : List Op} {r : AccessRequest} {limit : Int}

/-! ## Limits -/

/-- Every policy has a duration the policy routes accept. -/
def InRange (w : World) : Prop :=
  ∀ p ∈ w.db.accessPolicies, 60 ≤ p.maxSessionDuration ∧ p.maxSessionDuration ≤ 604800

/-- The policy that leads for a request, by the account where the evaluation of
the request goes by it. -/
def Governs (db : Database) (r : AccessRequest) (server : Server) (p : AccessPolicy) : Prop :=
  db.server r.orgId r.serverId = some server ∧
    Leads db r.orgId r.requesterId server (evaluatedPrincipal r.protocol r.requestedPrincipal)
      .allow p

def GovernsBreakGlass (db : Database) (r : AccessRequest) (server : Server) (p : AccessPolicy) :
    Prop :=
  db.server r.orgId r.serverId = some server ∧
    FirstMin AccessPolicy.priority
      ((applying db r.orgId r.requesterId server none .allow).filter AccessPolicy.isBreakGlass) p

/-- The seconds for which an operation may approve a request. -/
inductive Limit (w : World) : Op → AccessRequest → Int → Prop
  | /-- By `access.bypass_policies`. -/
    bypassed {id : Id} {params : SubmitParams} {r : AccessRequest} {server : Server} :
      w.db.server r.orgId r.serverId = some server → mayBypass w.db r.orgId r.requesterId server →
      Limit w (.submit id params) r 86400
  | submitted {id : Id} {params : SubmitParams} {r : AccessRequest} {server : Server}
      {p : AccessPolicy} :
      Governs w.db r server p → ¬ mayBypass w.db r.orgId r.requesterId server →
      Limit w (.submit id params) r p.maxSessionDuration
  | reviewed {params : ReviewParams} {r : AccessRequest} {server : Server} {p : AccessPolicy} :
      Governs w.db r server p → Limit w (.review params) r p.maxSessionDuration
  | granted {id : Id} {params : VerifyBreakGlassParams} {r : AccessRequest} {server : Server}
      {p : AccessPolicy} :
      GovernsBreakGlass w.db r server p →
      Limit w (.verifyBreakGlass id params) r p.maxSessionDuration

/-- The request is approved for some time within the limit, from when it was
approved to when it expires. -/
def WithinLimit (w : World) (op : Op) (r : AccessRequest) : Prop :=
  ∃ limit d t, Limit w op r limit ∧ r.approvedDuration = some d ∧ d ≤ limit ∧
    r.approvedAt = some t ∧ r.expiresAt = some (t + d * 1000)

/-- Whatever the step approves is within its limit. -/
def Bounded (w : World) (op : Op) (w' : World) : Prop :=
  ∀ r, Approves w w' r → WithinLimit w op r

theorem InRange.pos (h : InRange w) {p : AccessPolicy} (hp : p ∈ w.db.accessPolicies) :
    0 < p.maxSessionDuration := lt_of_lt_of_le (by decide) (h p hp).1

/-! ## Submitting -/

theorem withinLimit_submit {id : Id} {params : SubmitParams} {s : Submission} {e : Evaluation}
    (hrange : InRange w) (hs : checkSubmit w.db params = .ok s)
    (he : submitEvaluation w.db params s = .ok e) (hreq : e.requiresApproval = false)
    (hal : e.allowed = true) :
    WithinLimit w (.submit id params) (approvedRow id w.now params s.principal
      (clampToPolicy params.requestedDuration e.maxTtl)) := by
  have hc := checkSubmit_ok hs
  obtain ⟨-, -, -, server, hserver, hruled⟩ := evaluate_eq_ok_iff.mp he
  cases hruled with
  | denied | unmatched => simp [deniedBy] at hal
  | bypass _ hb =>
    have hpos : (0 : Int) < 86400 := by simp
    exact ⟨_, _, _, .bypassed hserver hb, rfl, clampToPolicy_le hpos, rfl, rfl⟩
  | governed _ hn hp =>
    exact ⟨_, _, _, .submitted ⟨hserver, hp⟩ hn, rfl, clampToPolicy_le (hrange.pos hp.mem), rfl,
      rfl⟩

/-! ## Reviewing -/

/-- `review` is about to approve the request. -/
structure AboutToApprove (w : World) (params : ReviewParams) (r : AccessRequest) : Prop where
  found : lookup AccessRequest.id params.requestId w.accessRequests = some r
  decision : checkReviewParams params = .ok .approve
  eligible : checkReview params r = .ok ()
  active : canStillApprove w.db r.orgId params.reviewerId = true

/-- A policy governs the request, and, over RDP, where `review` asks for one that
lists the account as well, no more is asked for than the policy allows, or there
is one that lists the account and allows no more. -/
def ReviewKeeps (w : World) (params : ReviewParams) (r : AccessRequest) : Prop :=
  ∃ server p, Governs w.db r server p ∧
    (r.protocol = .rdp → askedDuration params r ≤ p.maxSessionDuration ∨
      ∃ q, Leads w.db r.orgId r.requesterId server (some r.requestedPrincipal) .allow q ∧
        q.maxSessionDuration ≤ p.maxSessionDuration)

abbrev reviewedRow (w : World) (params : ReviewParams) (r : AccessRequest) : AccessRequest :=
  decideRow params .approve w.now
    (reviewDuration (reviewPolicy w.db r) (askedDuration params r)) r

theorem reviewPolicy_eq_some {db : Database} {server : Server} {q : AccessPolicy}
    (h : db.server r.orgId r.serverId = some server) :
    reviewPolicy db r = some q ↔
      Leads db r.orgId r.requesterId server (some r.requestedPrincipal) .allow q := by
  rw [reviewPolicy, findApproverPolicy_truthy, findApproverPolicy_eq_some h]

/-- What `review` grants is within the allowance of a policy exactly if that much
was asked for or the policy it found allows no more. -/
theorem reviewDuration_le_iff {server : Server} {params : ReviewParams} (hrange : InRange w)
    (hserver : w.db.server r.orgId r.serverId = some server) :
    reviewDuration (reviewPolicy w.db r) (askedDuration params r) ≤ limit ↔
      askedDuration params r ≤ limit ∨
        ∃ q, Leads w.db r.orgId r.requesterId server (some r.requestedPrincipal) .allow q ∧
          q.maxSessionDuration ≤ limit := by
  simp only [← reviewPolicy_eq_some hserver]
  cases hq : reviewPolicy w.db r with
  | none => simp [reviewDuration]
  | some q =>
    have hlead := (reviewPolicy_eq_some hserver).mp hq
    rw [reviewDuration_some (hrange.pos hlead.mem), min_le_iff]
    simp

/-- `review` keeps to its limit exactly under the condition. -/
theorem withinLimit_review_iff {params : ReviewParams} (hrange : InRange w) :
    WithinLimit w (.review params) (reviewedRow w params r) ↔ ReviewKeeps w params r := by
  constructor
  · rintro ⟨_, d, t, hlimit, hd, hle, -, -⟩
    cases hlimit with
    | reviewed hp =>
      rename_i server p
      obtain rfl := Option.some.inj hd
      exact ⟨server, p, hp, fun _ ↦ (reviewDuration_le_iff hrange hp.1).mp hle⟩
  · rintro ⟨server, p, hp, hrdp⟩
    refine ⟨_, _, _, .reviewed hp, rfl, (reviewDuration_le_iff hrange hp.1).mpr ?_, rfl, rfl⟩
    cases hprot : r.protocol with
    | rdp => exact hrdp hprot
    | ssh =>
      -- the account was evaluated with, so the policies are the same
      have hlead := hp.2
      rw [hprot] at hlead
      exact .inr ⟨p, hlead, le_rfl⟩

theorem AboutToApprove.approves {params : ReviewParams} (h : AboutToApprove w params r)
    (hk : Keyed w) (hs : step cfg w (.review params) = some w') :
    Approves w w' (reviewedRow w params r) := by
  obtain ⟨hr, hid⟩ := lookup_spec h.found
  have hpending : r.status = .pending := by
    have hcheck := h.eligible
    unfold checkReview at hcheck
    split at hcheck
    · cases hcheck
    split at hcheck
    · cases hcheck
    · rename_i hst; exact not_not.mp hst
  have hrow : reviewRow w.db w.now params .approve r = .ok (reviewedRow w params r) := by
    simp [reviewRow, h.eligible, h.active, claim, hpending]
  have hw : w.review params = .ok { w with
      accessRequests := modify AccessRequest.id r.id (fun _ ↦ reviewedRow w params r)
        w.accessRequests } := by
    simp [review, h.decision, h.found, hrow]
  obtain rfl := Option.some.inj hs
  refine ⟨?_, rfl, fun q hq hqid ↦ ?_⟩
  · rw [hw]
    exact mem_modify.mpr (.inr ⟨r, hr, rfl, rfl⟩)
  · obtain rfl : q = r := List.inj_on_of_nodup_map hk.requests hq hr hqid
    simp [hpending]

/-! ## Break-glass -/

theorem withinLimit_granted_iff {id : Id} {params : VerifyBreakGlassParams} {payload : Challenge}
    {invoker : User} {server : Server} {policy : AccessPolicy}
    (h : MayGrant cfg.toCrypto w params payload invoker server policy) :
    WithinLimit w (.verifyBreakGlass id params)
        (breakGlassRow id w.now params payload server policy) ↔
      300 ≤ policy.maxSessionDuration := by
  obtain ⟨-, hserver, -, hpolicy, -⟩ := recheckBreakGlass_ok h.recheck
  have hlead := ((findBreakGlassPolicy_eq_some hserver).mp hpolicy).2
  rw [← @breakGlassTtl_le_iff payload.ttlSeconds]
  constructor
  · rintro ⟨_, d, t, hlimit, hd, hle, -, -⟩
    cases hlimit with
    | granted hp =>
      obtain ⟨hserver', hp⟩ := hp
      obtain rfl := Option.some.inj (hserver.symm.trans hserver')
      obtain rfl := hlead.unique hp
      obtain rfl := Option.some.inj hd
      exact hle
  · exact fun hle ↦ ⟨_, _, _, .granted ⟨hserver, hlead⟩, rfl, hle, rfl, rfl⟩

theorem approves_of_granted {id : Id} {params : VerifyBreakGlassParams} (hk : Keyed w)
    (h : Granted cfg.toCrypto w id params r)
    (hs : step cfg w (.verifyBreakGlass id params) = some w') : Approves w w' r := by
  obtain ⟨hid, hs⟩ := Option.ite_none_left_eq_some.mp hs
  obtain rfl := Option.some.inj hs
  refine ⟨?_, ?_, fun q hq hqid ↦ (hid ?_).elim⟩
  · rw [verifyBreakGlass_of_granted h]
    exact List.mem_append_right _ List.mem_cons_self
  · obtain ⟨_, _, _, _, -, rfl⟩ := h
    rfl
  · rw [← h.id, ← hqid]
    exact hk.drawn q hq

/-! ## Runs -/

/-- What a step is to respect: a review that approves a request keeps to the
policy that governs it, and break-glass is granted by a policy that allows five
minutes. -/
def KeepsToPolicy (cfg : Config) (w : World) : Op → Prop
  | .review params => ∀ r, AboutToApprove w params r → ReviewKeeps w params r
  | .verifyBreakGlass _ params => ∀ payload invoker server policy,
      MayGrant cfg.toCrypto w params payload invoker server policy →
      300 ≤ policy.maxSessionDuration
  | _ => True

theorem bounded_iff (hk : Keyed w) (hrange : InRange w) (hs : step cfg w op = some w') :
    Bounded w op w' ↔ KeepsToPolicy cfg w op := by
  constructor
  · intro hb
    cases op with
    | review params =>
      exact fun r h ↦ (withinLimit_review_iff hrange).mp (hb _ (h.approves hk hs))
    | verifyBreakGlass id params =>
      intro payload invoker server policy h
      exact (withinLimit_granted_iff h).mp
        (hb _ (approves_of_granted hk ⟨payload, invoker, server, policy, h, rfl⟩ hs))
    | _ => trivial
  · intro hkeep r ha
    cases approval_of_step hk hs ha with
    | submitted hcheck he hreq hal => exact withinLimit_submit hrange hcheck he hreq hal
    | reviewed hq hd hcheck hcan _ =>
      exact (withinLimit_review_iff hrange).mpr (hkeep _ ⟨hq, hd, hcheck, hcan⟩)
    | granted hg =>
      obtain ⟨payload, invoker, server, policy, h, rfl⟩ := hg
      exact (withinLimit_granted_iff h).mpr (hkeep payload invoker server policy h)

/-- The runs in which every approval is within its limit are those in which every
step keeps to the policy. -/
theorem run_withinLimit_iff (h₀ : Initial w₀) (hrange : InRange w₀) :
    Run (step cfg) (fun w op w' ↦ InRange w' ∧ Bounded w op w') w₀ es w ↔
      Run (step cfg) (fun w op w' ↦ InRange w' ∧ KeepsToPolicy cfg w op) w₀ es w := by
  have hI : Keyed w₀ ∧ InRange w₀ := ⟨h₀.keyed, hrange⟩
  constructor
  · intro h
    exact h.mono_of_invariant (I := fun w ↦ Keyed w ∧ InRange w) hI fun t e u ht hs hok ↦
      ⟨⟨ht.1.step hs, hok.1⟩, hok.1, (bounded_iff ht.1 ht.2 hs).mp hok.2⟩
  · intro h
    exact h.mono_of_invariant (I := fun w ↦ Keyed w ∧ InRange w) hI fun t e u ht hs hok ↦
      ⟨⟨ht.1.step hs, hok.1⟩, hok.1, (bounded_iff ht.1 ht.2 hs).mpr hok.2⟩

/-- Eve approves what Ana asked for, an hour on production, which the policy
allows. -/
theorem run_withinLimit_eve : ∃ w : World,
    w.accessRequests.map AccessRequest.approvedDuration = [some 3600] ∧
    Run (step plainConfig) (fun w op w' ↦ InRange w' ∧ Bounded w op w') prodWorld
      [anaAsksForProd, eveApproves] w := by
  have hrange : ∀ w : World, w.db = prodOrg → InRange w := by
    rintro w hw p hp
    rw [hw] at hp
    obtain rfl := List.mem_singleton.mp hp
    exact ⟨by decide, by decide⟩
  refine ⟨_, ?_, (run_withinLimit_iff ⟨rfl, rfl⟩ (hrange _ rfl)).mpr
    ((Run.nil.snoc (e := anaAsksForProd) rfl ⟨hrange _ rfl, trivial⟩).snoc (e := eveApproves) rfl
      ⟨hrange _ rfl, fun r hr ↦ ?_⟩)⟩
  · rfl
  · obtain rfl := Option.some.inj hr.found
    exact ⟨_, _, ⟨rfl, [], [], rfl, by simp, by simp⟩, by simp [pendingRow]⟩

def authenticatorConfig : Config where
  totpCheck := fun _ code _ ↦ code = "123456"
  sha256 := id

def paymentsServer : Server := { id := "srv", orgId := "org", customerId := "acme" }

def minuteOrg : Database where
  users := [{ ana with mfaTotpEnabled := true, mfaTotpSecret := some "JBSWY3DP" }]
  servers := [paymentsServer]
  accessPolicies :=
    [{ evePolicy with allowedPrincipals := [], isBreakGlass := true, maxSessionDuration := 60 }]

def minuteWorld : World := { now := 0, db := minuteOrg }

def anaStartsBreakGlass : Op :=
  .startBreakGlass "challenge" ⟨"mail", "", false⟩
    { orgId := "org"
      invokerId := "ana"
      invokerPermissions := ["access.break_glass"]
      serverId := "srv"
      reason := "the payments database is down" }

def anaBreaksGlass : Op :=
  .verifyBreakGlass "req"
    { orgId := "org"
      invokerId := "ana"
      invokerPermissions := ["access.break_glass"]
      challengeId := "challenge"
      code := "123456" }

/-- Ana breaks the glass by a policy that allows a minute, and gets five. -/
theorem breakGlass_outlives_policy : Initial minuteWorld ∧ InRange minuteWorld ∧
    ∃ w w' : World, Run (step authenticatorConfig) (fun _ _ w' ↦ InRange w') minuteWorld
        [anaStartsBreakGlass] w ∧
      step authenticatorConfig w anaBreaksGlass = some w' ∧ InRange w' ∧
      w'.accessRequests.map AccessRequest.approvedDuration = [some 300] ∧
      ¬ Bounded w anaBreaksGlass w' := by
  have hrange : ∀ w : World, w.db = minuteOrg → InRange w := by
    rintro w hw p hp
    rw [hw] at hp
    obtain rfl := List.mem_singleton.mp hp
    exact ⟨by decide, by decide⟩
  have h₀ : Initial minuteWorld := ⟨rfl, rfl⟩
  have hrun : Run (step authenticatorConfig) (fun _ _ w' ↦ InRange w') minuteWorld
    [anaStartsBreakGlass] _ := .single rfl (hrange _ rfl)
  refine ⟨h₀, hrange _ rfl, _, _, hrun, rfl, hrange _ rfl, rfl, fun hb ↦ ?_⟩
  have hkeep := (bounded_iff (h₀.keyed.run hrun) (hrange _ rfl) rfl).mp hb
  have hlong := hkeep _ _ _ _ ⟨rfl, by decide, rfl, rfl, rfl, rfl⟩
  exact absurd hlong (by decide)

end World

end Shellius
