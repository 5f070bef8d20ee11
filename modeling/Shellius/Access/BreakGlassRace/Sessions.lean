import Shellius.Access.BreakGlassRace.Challenges

/-!
# Sessions under concurrency

At most one session of break-glass is active on a server as long as none begins
between the check for one and the creation of the next.  With what holds of
challenges, `verifyBreakGlass_safe` says what break-glass promises in every
orderly run; two calls that check one code at the same time are not orderly, and
break the promise.
-/

namespace Shellius.BreakGlassRace

open Lib

/-! ## Sessions -/

section

variable {cfg : Config} {home : Id → Id} {id : Id} {params : VerifyBreakGlassParams}
  {s : Store} {point point' : Point} {w w' : World} {op : World.Op} {p : Pool Store Call}

def IsActive (now : Millis) (r : AccessRequest) : Prop :=
  r.breakGlass = true ∧ r.status = .approved ∧ r.expiresAt.any fun t ↦ now < t

/-- On each server at most one session is active. -/
structure Exclusive (home : Id → Id) (w : World) : Prop where
  keyed : World.Keyed w
  servers : ∀ server ∈ w.db.servers, server.orgId = home server.id
  org : ∀ r ∈ w.accessRequests, r.orgId = home r.serverId
  decided : ∀ r ∈ w.accessRequests, r.breakGlass = true → r.status ≠ .pending
  single : ∀ r ∈ w.accessRequests, ∀ r' ∈ w.accessRequests, r.serverId = r'.serverId →
    IsActive w.now r → IsActive w.now r' → r.id = r'.id

/-- Past the look-up of the server, the call is for one of its own organization. -/
def Placed (home : Id → Id) (params : VerifyBreakGlassParams) : Point → Prop
  | .checkProd payload .. | .findPolicy payload .. | .checkActive payload ..
  | .checkFactor payload .. | .useOtp payload .. | .burnChallenge (.granted payload ..)
  | .burnAttempts (.granted payload ..) | .create payload .. =>
    params.orgId = home payload.serverId
  | _ => True

theorem IsActive.anti {now : Millis} {r : AccessRequest} (hle : w.now ≤ now)
    (h : IsActive now r) : IsActive w.now r := by
  obtain ⟨hb, hst, ht⟩ := h
  refine ⟨hb, hst, ?_⟩
  simp only [Option.any_eq_true, decide_eq_true_eq] at ht ⊢
  obtain ⟨t, ht, hlt⟩ := ht
  exact ⟨t, ht, lt_of_le_of_lt hle hlt⟩

/-- How the rows of break-glass come out of a step of the other operations. -/
structure Comes (r r' : AccessRequest) : Prop where
  id : r'.id = r.id
  orgId : r'.orgId = r.orgId
  serverId : r'.serverId = r.serverId
  breakGlass : r'.breakGlass = r.breakGlass
  expiresAt : r'.breakGlass = true → r'.expiresAt = r.expiresAt
  status : r'.breakGlass = true → r'.status = r.status ∨
    r'.status ≠ .pending ∧ r'.status ≠ .approved

theorem comes_of_step (hx : Exclusive home w) (h : World.step cfg w op = some w')
    (hop : ∀ id params, op ≠ .verifyBreakGlass id params) {r' : AccessRequest}
    (hr : r' ∈ w'.accessRequests) :
    (∃ r ∈ w.accessRequests, Comes r r') ∨ r'.breakGlass = false ∧ r'.orgId = home r'.serverId := by
  cases World.step_rows hx.keyed.requests h hr with
  | kept hq => exact .inl ⟨r', hq, rfl, rfl, rfl, rfl, fun _ ↦ rfl, fun _ ↦ .inl rfl⟩
  | detached hq => exact .inl ⟨_, hq, rfl, rfl, rfl, rfl, fun _ ↦ rfl, fun _ ↦ .inl rfl⟩
  | linked _ hq =>
    exact .inl ⟨_, (lookup_spec hq).1, rfl, rfl, rfl, rfl, fun _ ↦ rfl, fun _ ↦ .inl rfl⟩
  | submitted _ hq =>
    obtain ⟨s, e, hs, -, hrow⟩ := submit_cases hq
    obtain ⟨hmem, hsid, horg⟩ := Database.server_spec (checkSubmit_ok hs).server
    have hhome := hx.servers _ hmem
    rw [hsid, horg] at hhome
    rcases hrow with ⟨-, primary, others, -, rfl⟩ | ⟨-, -, rfl⟩ <;> exact .inr ⟨rfl, hhome⟩
  | reviewed hq hd hq' =>
    rename_i decision r
    obtain ⟨-, -, hpending, rfl⟩ := reviewRow_ok hq'
    have hmem := (lookup_spec hq).1
    -- what is pending is no session
    have hno : r.breakGlass = false := by
      by_contra hb
      exact hx.decided r hmem (by simpa using hb) hpending
    refine .inr ⟨?_, ?_⟩ <;> cases decision
    · exact hno
    · exact hno
    · exact hx.org r hmem
    · exact hx.org r hmem
  | revoked hq =>
    exact .inl ⟨_, hq, rfl, rfl, rfl, rfl, fun _ ↦ rfl,
      fun _ ↦ .inr ⟨by simp [revokeRow], by simp [revokeRow]⟩⟩
  | expired hq | stale hq =>
    exact .inl ⟨_, hq, rfl, rfl, rfl, rfl, fun _ ↦ rfl,
      fun _ ↦ .inr ⟨by simp [expireRow], by simp [expireRow]⟩⟩
  | granted => exact (hop _ _ rfl).elim

theorem Comes.isActive {r r' : AccessRequest} {now : Millis} (h : Comes r r')
    (ha : IsActive now r') : IsActive now r := by
  obtain ⟨hb, hst, ht⟩ := ha
  refine ⟨h.breakGlass ▸ hb, ?_, h.expiresAt hb ▸ ht⟩
  rcases h.status hb with he | ⟨-, hne⟩
  · exact he ▸ hst
  · exact (hne hst).elim

theorem Exclusive.step (hx : Exclusive home w) (h : World.step cfg w op = some w')
    (hop : ∀ id params, op ≠ .verifyBreakGlass id params)
    (hhome : ∀ server ∈ w'.db.servers, server.orgId = home server.id) : Exclusive home w' where
  keyed := hx.keyed.step h
  servers := hhome
  org r' hr' := by
    rcases comes_of_step hx h hop hr' with ⟨r, hr, hc⟩ | ⟨-, horg⟩
    · rw [hc.orgId, hc.serverId]
      exact hx.org r hr
    · exact horg
  decided r' hr' hb := by
    rcases comes_of_step hx h hop hr' with ⟨r, hr, hc⟩ | ⟨hn, -⟩
    · rcases hc.status hb with he | ⟨hne, -⟩
      · exact he ▸ hx.decided r hr (hc.breakGlass ▸ hb)
      · exact hne
    · simp [hn] at hb
  single r' hr' q' hq' hs har haq := by
    rcases comes_of_step hx h hop hr' with ⟨r, hr, hcr⟩ | ⟨hn, -⟩
    · rcases comes_of_step hx h hop hq' with ⟨q, hq, hcq⟩ | ⟨hn, -⟩
      · have hnow := (step_challenges h hop).1
        have hid := hx.single r hr q hq (hcr.serverId.symm.trans (hs.trans hcq.serverId))
          ((hcr.isActive har).anti hnow) ((hcq.isActive haq).anti hnow)
        exact hcr.id.trans (hid.trans hcq.id.symm)
      · exact absurd haq.1 (by simp [hn])
    · exact absurd har.1 (by simp [hn])

theorem keyed_create (hk : World.Keyed w) (hid : id ∉ w.drawn) {r : AccessRequest}
    (hr : r.id = id) :
    World.Keyed { w with accessRequests := w.accessRequests ++ [r], drawn := id :: w.drawn } where
  requests := by
    rw [List.map_append, List.nodup_append]
    refine ⟨hk.requests, by simp, fun x hx y hy hxy ↦ hid ?_⟩
    obtain ⟨q, hq, rfl⟩ := List.mem_map.mp hx
    have hy : y = r.id := by simpa using hy
    rw [← hr, ← hy, ← hxy]
    exact hk.drawn q hq
  drawn q hq := by
    rcases List.mem_append.mp hq with hq | hq
    · exact List.mem_cons_of_mem _ (hk.drawn q hq)
    · rw [List.mem_singleton.mp hq, hr]
      exact List.mem_cons_self
  certificates := hk.certificates
  serials := hk.serials
  drawnCertificates c hc :=
    ⟨List.mem_cons_of_mem _ (hk.drawnCertificates c hc).1, (hk.drawnCertificates c hc).2⟩

theorem exclusive_create (hx : Exclusive home w) (hid : id ∉ w.drawn) {payload : Challenge}
    {server : Server} {policy : AccessPolicy} (hplaced : params.orgId = home payload.serverId)
    (hno : assertNoActiveBreakGlass w.accessRequests params.orgId payload.serverId w.now = .ok ()) :
    Exclusive home { w with
      accessRequests := w.accessRequests ++ [breakGlassRow id w.now params payload server policy]
      drawn := id :: w.drawn } := by
  have hother : ∀ r ∈ w.accessRequests, r.serverId = payload.serverId → ¬ IsActive w.now r := by
    intro r hr hs ⟨hb, hst, ht⟩
    have hnot := assertNoActiveBreakGlass_ok.mp hno r hr
    have horg : r.orgId = params.orgId := (hx.org r hr).trans (hs ▸ hplaced.symm)
    simp [isActiveBreakGlass, horg, hs, hb, hst, ht] at hnot
  refine ⟨keyed_create hx.keyed hid rfl, hx.servers, ?_, ?_, ?_⟩
  · rw [List.forall_mem_append]
    exact ⟨hx.org, List.forall_mem_singleton.mpr hplaced⟩
  · rw [List.forall_mem_append]
    exact ⟨hx.decided, List.forall_mem_singleton.mpr fun _ ↦ by simp [breakGlassRow]⟩
  · intro r hr r' hr' hs ha ha'
    rcases List.mem_append.mp hr with hr | hr <;> rcases List.mem_append.mp hr' with hr' | hr'
    · exact hx.single r hr r' hr' hs ha ha'
    · obtain rfl := List.mem_singleton.mp hr'
      exact (hother r hr hs ha).elim
    · obtain rfl := List.mem_singleton.mp hr
      exact (hother r' hr' hs.symm ha').elim
    · rw [List.mem_singleton.mp hr, List.mem_singleton.mp hr']

theorem exclusive_effect {st : Nat → Stage} (hx : Exclusive home s.toWorld) (hid : id ∉ s.drawn)
    (hplaced : Placed home params point) (hok : Timely s params st point) :
    Exclusive home (effect s params id point).toWorld := by
  cases point with
  | create payload server policy =>
    rw [effect]
    split
    · exact exclusive_create hx hid hplaced hok
    · exact hx
  | _ =>
    exact ⟨⟨hx.keyed.requests, hx.keyed.drawn, hx.keyed.certificates, hx.keyed.serials,
      hx.keyed.drawnCertificates⟩, hx.servers, hx.org, hx.decided, hx.single⟩

theorem placed_next {crypto : Crypto} (hx : Exclusive home s.toWorld)
    (hplaced : Placed home params point) (h : next crypto s params point = some point') :
    Placed home params point' := by
  cases point with
  | findServer payload invoker =>
    simp only [next] at h
    split at h
    · obtain rfl := Option.some.inj h
      trivial
    · rename_i hserver
      obtain rfl := Option.some.inj h
      obtain ⟨hmem, hsid, horg⟩ := Database.server_spec hserver
      have hhome := hx.servers _ hmem
      rwa [hsid, horg] at hhome
  | burnChallenge reason | burnAttempts reason =>
    cases reason with
    | granted => obtain rfl := Option.some.inj h; exact hplaced
    | _ => cases h <;> trivial
  | _ =>
    simp only [next] at h
    grind [Placed]

theorem program_keeps : (program cfg home).Keeps Orderly (fun s ↦ Exclusive home s.toWorld)
    fun _ _ k ↦ Placed home k.params k.point where
  spawn s i params _ := trivial
  act p i k id s' k' hp hk hact hok := by
    obtain ⟨hid, rfl, rfl⟩ := program_act hact
    refine ⟨exclusive_effect hp.1 hid (hp.2 i k hk) (hok k hk), fun l hl ↦ ?_,
      fun j l _ hj ↦ hp.2 j l hj⟩
    obtain ⟨point, hpoint, rfl⟩ := Option.map_eq_some_iff.mp hl
    exact placed_next hp.1 (hp.2 i k hk) hpoint
  abort p i k hp _ := ⟨hp.1, fun j l _ hj ↦ hp.2 j l hj⟩
  env s op s' hx henv := by
    obtain ⟨hop, hhome, w, hw, rfl⟩ := program_env henv
    exact ⟨hx.step hw hop hhome, fun _ _ hj ↦ hj⟩

/-! ## Safety -/

structure Initial (home : Id → Id) (s : Store) : Prop where
  accessRequests : s.accessRequests = []
  certificates : s.certificates = []
  challenges : s.challenges = fun _ ↦ none
  attempts : s.attempts = fun _ ↦ none
  checked : s.checked = fun _ ↦ 0
  created : s.created = fun _ ↦ 0
  servers : ∀ server ∈ s.db.servers, server.orgId = home server.id

structure Safe (s : Store) : Prop where
  singleUse : ∀ c, s.created c ≤ 1
  exclusive : ∀ r ∈ s.accessRequests, ∀ r' ∈ s.accessRequests, r.serverId = r'.serverId →
    IsActive s.now r → IsActive s.now r' → r = r'
  /-- No more codes are checked against a challenge than the limit. -/
  limited : ∀ c, s.checked c ≤ breakGlassMaxAttempts

theorem Initial.ticketed (h : Initial home s) : Ticketed (Program.idle Call s) := by
  refine ⟨⟨by simp [Program.idle, h.challenges], by simp [Program.idle, h.attempts]⟩, fun c ↦ ?_⟩
  have ht : ticket s c = ⟨decide (c ∈ s.drawn), false, 0, 0, 0⟩ := by
    simp [ticket, Expiring.get, h.challenges, h.attempts, h.checked, h.created]
  exact ht.symm ▸ Ticket.sound_unused _

theorem Initial.exclusive (h : Initial home s) : Exclusive home s.toWorld where
  keyed := World.Initial.keyed ⟨h.accessRequests, h.certificates⟩
  servers := h.servers
  org := by simp [h.accessRequests]
  decided := by simp [h.accessRequests]
  single := by simp [h.accessRequests]

/-- In every orderly run of any number of calls among the other operations,
break-glass keeps its promise. -/
theorem verifyBreakGlass_safe {es : List (Event VerifyBreakGlassParams Id World.Op)}
    (h₀ : Initial home s)
    (hr : Run (program cfg home).step Orderly (Program.idle Call s) es p) : Safe p.store := by
  have ht : Ticketed p := hr.invariant h₀.ticketed fun _ _ _ ht hs hok ↦ ht.step hs hok
  obtain ⟨hx, -⟩ := program_keeps.run (Program.holds_idle h₀.exclusive) hr
  refine ⟨fun c ↦ (ht.sound c).redeemed_le, fun r hr r' hr' hs ha ha' ↦ ?_,
    fun c ↦ (ht.sound c).checked_le⟩
  exact List.inj_on_of_nodup_map hx.keyed.requests hr hr' (hx.single r hr r' hr' hs ha ha')

end

/-! ### Ana in an emergency -/

def oneCode : Config where
  totpCheck := fun _ code _ ↦ code = "123456"
  sha256 := id

def emergencyOrg : Database where
  users :=
    [{ id := "ana", orgId := "org", mfaTotpEnabled := true, mfaTotpSecret := some "JBSWY3DP" }]
  servers := [{ id := "srv", orgId := "org", customerId := "acme" }]
  accessPolicies :=
    [{ id := "pol"
       orgId := "org"
       maxSessionDuration := 1800
       isBreakGlass := true
       subjects := [⟨.user, "ana"⟩] }]

def quiet : Store where
  now := 0
  db := emergencyOrg

theorem quiet_initial : Initial (fun _ ↦ "org") quiet :=
  ⟨rfl, rfl, rfl, rfl, rfl, rfl, by decide⟩

def anaStarts : Event VerifyBreakGlassParams Id World.Op :=
  .env (.startBreakGlass "challenge" ⟨"mail", "", false⟩
    { orgId := "org"
      invokerId := "ana"
      invokerPermissions := ["access.break_glass"]
      serverId := "srv"
      reason := "the payments database is down" })

def anaVerifies (i : Nat) : Event VerifyBreakGlassParams Id World.Op :=
  .spawn i
    { orgId := "org"
      invokerId := "ana"
      invokerPermissions := ["access.break_glass"]
      challengeId := "challenge"
      code := "123456" }

def isTimely (s : Store) (params : VerifyBreakGlassParams) : Point → Bool
  | .checkFactor .. => (s.challenges.get s.now params.challengeId).isSome
  | .useOtp .. => false
  | .create payload _ _ =>
    !s.accessRequests.any (isActiveBreakGlass params.orgId payload.serverId s.now)
  | _ => true

/-- The step is one of a call in slot 0, of which every command comes in time, or
of the other operations. -/
def isAlone (p : Pool Store Call) : Event VerifyBreakGlassParams Id World.Op → Bool
  | .spawn i _ => i = 0
  | .act i _ => i = 0 ∧ (p.calls 0).all fun k ↦ isTimely p.store k.params k.point
  | .abort _ => false
  | .env _ => true

theorem orderly_of_isAlone {p q : Pool Store Call} {e : Event VerifyBreakGlassParams Id World.Op}
    (h : ∀ j, j ≠ 0 → p.calls j = none) (he : isAlone p e = true) : Orderly p e q := by
  cases e with
  | act i id =>
    simp only [isAlone, decide_eq_true_eq] at he
    obtain ⟨rfl, hall⟩ := he
    intro k hk
    have htimely : isTimely p.store k.params k.point = true := by simpa [hk] using hall
    cases hp : k.point with
    | checkFactor =>
      rw [hp] at htimely
      refine ⟨htimely, fun j ↦ ?_⟩
      by_cases hj : j = 0
      · subst hj; simp [stages, hk, stageOf, hp, Point.stage, Stage.isOpen]
      · simp [stages, h j hj, stageOf, Stage.isOpen]
    | create payload server policy =>
      rw [hp] at htimely
      refine assertNoActiveBreakGlass_ok.mpr fun r hr ↦ ?_
      simp only [isTimely, Bool.not_eq_true', List.any_eq_false] at htimely
      simpa using htimely r hr
    | useOtp => simp [hp, isTimely] at htimely
    | _ => trivial
  | abort => simp [isAlone] at he
  | spawn | env => trivial

theorem inFirst_of_isAlone {p : Pool Store Call} {e : Event VerifyBreakGlassParams Id World.Op}
    (he : isAlone p e = true) : e.inFirst = true := by
  cases e with
  | spawn i params => exact he
  | act i id =>
    simp only [isAlone, decide_eq_true_eq] at he
    exact decide_eq_true he.1
  | abort i => cases he
  | env op => rfl

theorem run_of_isAlone {cfg : Config} {home : Id → Id} {s : Store} {p : Pool Store Call}
    {es : List (Event VerifyBreakGlassParams Id World.Op)}
    (h : Run (program cfg home).step (fun p e _ ↦ isAlone p e = true) (Program.idle Call s) es p) :
    Run (program cfg home).step Orderly (Program.idle Call s) es p :=
  h.mono_of_invariant (I := fun p ↦ ∀ j, j ≠ 0 → p.calls j = none) (fun _ _ ↦ rfl)
    fun _ _ _ hp hs he ↦
      ⟨Program.calls_of_inFirst hp hs (inFirst_of_isAlone he), orderly_of_isAlone hp he⟩

/-- Ana breaks the glass, has one session, and the promise holds. -/
theorem verifyBreakGlass_safe_ana : ∃ p : Pool Store Call,
    p.store.accessRequests.map (fun r ↦ (r.id, r.status)) = [("req", .approved)] ∧
      p.store.checked "challenge" = 1 ∧ Safe p.store := by
  have h : execIf (program oneCode fun _ ↦ "org").step isAlone (Program.idle Call quiet)
      (anaStarts :: anaVerifies 0 :: List.replicate 11 (.act 0 "req")) = some _ := rfl
  have hrun := run_of_isAlone (run_of_execIf h)
  exact ⟨_, rfl, rfl, verifyBreakGlass_safe quiet_initial hrun⟩

/-- Two calls with the same code both check it before either has burnt the
challenge, and both create a session. -/
theorem challenge_used_twice : Initial (fun _ ↦ "org") quiet ∧
    ∃ es p, Run (program oneCode fun _ ↦ "org").step free (Program.idle Call quiet) es p ∧
      p.store.created "challenge" = 2 ∧
      p.store.accessRequests.map AccessRequest.id = ["req", "req'"] ∧ ¬ Safe p.store := by
  have h : exec (program oneCode fun _ ↦ "org").step (Program.idle Call quiet)
      ([anaStarts, anaVerifies 0, anaVerifies 1] ++
        List.replicate 8 (.act 0 "req") ++ List.replicate 8 (.act 1 "req'") ++
        List.replicate 3 (.act 0 "req") ++ List.replicate 3 (.act 1 "req'")) = some _ := rfl
  refine ⟨quiet_initial, _, _, run_of_exec h, rfl, rfl, fun hsafe ↦ ?_⟩
  exact absurd (hsafe.singleUse "challenge") (by decide)

end Shellius.BreakGlassRace
