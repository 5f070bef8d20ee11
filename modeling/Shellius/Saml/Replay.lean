import Shellius.Lib.Checks
import Shellius.Lib.Expiring
import Shellius.Lib.Pool
import Shellius.Policy.Evaluate

/-!
# Assertions that are used once

`samlService.consumeAssertion` over `samlReplayStore`.  A signed assertion is a bearer
credential: whoever has a copy can post it again.  What stops them is a key in Redis that
is set when the assertion is accepted, and that must not expire before the assertion does.

The library that validates the assertion, Redis and what the identity providers sign are
not part of the service.  The library accepts an assertion between the instants the
assertion names, give or take the skew of the clocks.
-/

namespace Shellius.Saml

open Lib

/-! ## Assertions -/

/-- A provider row, as far as it decides about assertions. -/
structure Provider where
  acsUrl : String
  samlIdpEntityId : Option String := none
  samlClockSkewSec : Option Int := some 60

/-- What `readAssertionFacts` finds in the signed assertion.  There is an `issueInstant` if
the maximum age is measured from it. -/
structure Facts where
  issuer : Option String := none
  recipients : List String := []
  inResponseTo : Option String := none
  issueInstant : Option Millis := none
  notBefore : Option Millis := none
  notOnOrAfter : Option Millis := none

/-- The configuration of the service, and the assertions that are around: what the identity
provider of a row has signed under an identifier. -/
structure Federation where
  providers : Id → Provider
  signed : Id → String → Facts
  maxAssertionAgeMs : Int := 10 * 60 * 1000
  sha256 : String → String
  urlEquals : String → String → Bool
  /-- Whether `mapProfile` makes an account of what the assertion says. -/
  mapsProfile : Id → String → Bool

/-- An assertion as a browser posts it, with the request its relay state names.  An
assertion without an identifier has the empty one. -/
structure Post where
  providerId : Id
  assertionId : String
  expectedInResponseTo : Option String := none

/-! ## Times -/

def maxAssertionLifetimeSec : Int := 24 * 60 * 60

def minClockSkewSec : Int := 0

def maxClockSkewSec : Int := 300

def assertionTtlMinSec : Int := 5 * 60

def assertionTtlMaxSec : Int := 24 * 60 * 60

def clampSkew (v : Option Int) : Int := min maxClockSkewSec (max minClockSkewSec (v.getD 60))

/-- `assertionTtlSeconds`; the quotient is rounded up. -/
def assertionTtlSeconds (notOnOrAfter : Option Millis) (clockSkewSec : Int) (now : Millis) : Int :=
  let ttl := match notOnOrAfter with
    | some parsed => -((now - parsed) / 1000) + clockSkewSec
    | none => assertionTtlMinSec
  min assertionTtlMaxSec (max assertionTtlMinSec ttl)

/-- The library accepts the assertion at an instant. -/
def Facts.acceptedAt (facts : Facts) (skewMs maxAgeMs : Int) (now : Millis) : Bool :=
  facts.notBefore.all (fun t ↦ t - skewMs ≤ now) ∧
    facts.notOnOrAfter.all (fun t ↦ now < t + skewMs) ∧
    facts.issueInstant.all (fun t ↦ now < t + maxAgeMs + skewMs)

/-! ## The checks on a validated assertion -/

def samlError (code message : String) : ApiError := ⟨403, message, some code⟩

def assertIssuer (facts : Facts) (expectedEntityId : Option String) : Except ApiError Unit :=
  match truthy expectedEntityId with
  | none => pure ()
  | some expected => do
      let issuer ← demand (truthy facts.issuer)
        (samlError "saml_issuer_mismatch" "SAML assertion has no Issuer")
      require (trim issuer = trim expected) (samlError "saml_issuer_mismatch"
        "SAML assertion came from an unexpected identity provider")

def assertRecipient (urlEquals : String → String → Bool) (facts : Facts) (acsUrl : String) :
    Except ApiError Unit :=
  require (facts.recipients = [] ∨ facts.recipients.any (fun r ↦ urlEquals r acsUrl))
    (samlError "saml_destination_mismatch" "SAML assertion was issued for a different service")

def assertLifetime (facts : Facts) : Except ApiError Unit :=
  match facts.notBefore, facts.notOnOrAfter with
  | some fromInstant, some toInstant =>
    require (toInstant - fromInstant ≤ maxAssertionLifetimeSec * 1000)
      (samlError "saml_invalid" "SAML assertion validity window is unreasonably long")
  | _, _ => pure ()

namespace Federation

variable (F : Federation)

def clockSkewSec (providerId : Id) : Int := clampSkew (F.providers providerId).samlClockSkewSec

/-- Whether an assertion is accepted at an instant, as far as time goes. -/
def acceptedAt (providerId : Id) (assertionId : String) (now : Millis) : Bool :=
  (F.signed providerId assertionId).acceptedAt (F.clockSkewSec providerId * 1000)
    F.maxAssertionAgeMs now

/-- The checks of `consumeAssertion` between the validation and the claim. -/
def checkFacts (post : Post) : Except ApiError Unit := do
  let facts := F.signed post.providerId post.assertionId
  assertIssuer facts (F.providers post.providerId).samlIdpEntityId
  assertRecipient F.urlEquals facts (F.providers post.providerId).acsUrl
  assertLifetime facts
  require ((truthy post.expectedInResponseTo).all fun id ↦ facts.inResponseTo = some id)
    (samlError "saml_request_mismatch" "SAML response does not match the sign-in that started it")
  require (post.assertionId ≠ "")
    (samlError "saml_invalid" "SAML assertion has no ID, so it cannot be tracked against replay")

def assertionKey (providerId : Id) (assertionId : String) : String :=
  "saml:aid:" ++ providerId ++ ":" ++ F.sha256 assertionId

end Federation

/-! ## Calls -/

/-- The keys in Redis, and the assertions that have been consumed. -/
structure Store where
  now : Millis
  claims : Expiring String String Millis := fun _ ↦ none
  consumed : List (Id × String) := []

/-- A call of `consumeAssertion` on its way. -/
inductive Call where
  | posted (post : Post)
  | /-- The library has accepted the assertion. -/
    validated (post : Post)
  | /-- The claim is on its way to Redis. -/
    sent (post : Post) (ttlSec : Int)

/-- The next step of a call: the library looks at the clock, the service does, and Redis
executes the command; the reply comes in time or not. -/
inductive Command where
  | validate
  | send
  | set (answered : Bool)

def setNx (s : Store) (key : String) (ttlSec : Int) : Option Store :=
  if (s.claims.get s.now key).isSome then none
  else some { s with claims := s.claims.set key "1" (some (s.now + ttlSec * 1000)) }

def consume (F : Federation) (s : Store) (post : Post) : Store :=
  if F.mapsProfile post.providerId post.assertionId then
    { s with consumed := (post.providerId, post.assertionId) :: s.consumed }
  else s

/-- One step of `consumeAssertion`. -/
def act (F : Federation) (s : Store) : Call → Command → Option (Store × Option Call)
  | .posted post, .validate =>
    if F.acceptedAt post.providerId post.assertionId s.now ∧ (F.checkFacts post).isOk then
      some (s, some (.validated post))
    else some (s, none)
  | .validated post, .send =>
    some (s, some (.sent post (assertionTtlSeconds
      (F.signed post.providerId post.assertionId).notOnOrAfter
      (F.clockSkewSec post.providerId) s.now)))
  | .sent post ttlSec, .set answered =>
    match setNx s (F.assertionKey post.providerId post.assertionId) ttlSec with
    | none => some (s, none)
    | some t => some (if answered then consume F t post else t, none)
  | _, _ => none

/-- Any number of clients post assertions while time passes. -/
def program (F : Federation) : Program Store Post Call Command Millis where
  start := .posted
  act _ := act F
  env s now := if s.now ≤ now then some { s with now } else none

/-! ## How long a claim has to last -/

/-- The time for which a claim is kept at most. -/
def Facts.claimLimit (facts : Facts) : Int :=
  if facts.notOnOrAfter.isSome then assertionTtlMaxSec * 1000 else assertionTtlMinSec * 1000

section

variable {facts : Facts} {skewSec maxAgeMs now t u : Int}

theorem acceptedAt_iff {skewMs : Int} : facts.acceptedAt skewMs maxAgeMs now = true ↔
    (∀ b ∈ facts.notBefore, b - skewMs ≤ now) ∧
      (∀ e ∈ facts.notOnOrAfter, now < e + skewMs) ∧
      ∀ i ∈ facts.issueInstant, now < i + maxAgeMs + skewMs := by
  simp [Facts.acceptedAt, Option.all_eq_true]

theorem acceptedAt_between {skewMs : Int} (hnow : facts.acceptedAt skewMs maxAgeMs now = true)
    (hu : facts.acceptedAt skewMs maxAgeMs u = true) (hle : now ≤ t) (hle' : t ≤ u) :
    facts.acceptedAt skewMs maxAgeMs t = true := by
  obtain ⟨hb, -, -⟩ := acceptedAt_iff.mp hnow
  obtain ⟨-, he, hi⟩ := acceptedAt_iff.mp hu
  exact acceptedAt_iff.mpr ⟨fun b hmem ↦ (hb b hmem).trans hle,
    fun e hmem ↦ hle'.trans_lt (he e hmem), fun i hmem ↦ hle'.trans_lt (hi i hmem)⟩

theorem claim_outlasts {sent : Int} (hsent : sent ≤ now)
    (hnow : facts.acceptedAt (skewSec * 1000) maxAgeMs now = true)
    (hlimit : facts.acceptedAt (skewSec * 1000) maxAgeMs (now + facts.claimLimit) = false)
    (hle : now ≤ t) (ht : facts.acceptedAt (skewSec * 1000) maxAgeMs t = true) :
    t < now + assertionTtlSeconds facts.notOnOrAfter skewSec sent * 1000 := by
  have hbefore : t < now + facts.claimLimit := by
    by_contra hge
    have hpos : 0 ≤ facts.claimLimit := by
      unfold Facts.claimLimit
      split <;> decide
    have hmid := acceptedAt_between hnow ht (t := now + facts.claimLimit) (by omega) (by omega)
    rw [hlimit] at hmid
    cases hmid
  cases he : facts.notOnOrAfter with
  | none =>
    simp only [Facts.claimLimit, he, assertionTtlMinSec] at hbefore
    simp only [assertionTtlSeconds, assertionTtlMinSec, assertionTtlMaxSec]
    simp at hbefore ⊢
    exact hbefore
  | some e =>
    have hexp : t < (e : Int) + skewSec * 1000 := (acceptedAt_iff.mp ht).2.1 e he
    simp only [Facts.claimLimit, he, Option.isSome_some, if_true, assertionTtlMaxSec] at hbefore
    simp only [assertionTtlSeconds, assertionTtlMinSec, assertionTtlMaxSec]
    omega

end

/-! ## Runs of calls -/

/-- The claim that a step of a call sets is good: the assertion is still accepted, and will
not be any more when the limit is over. -/
def GoodClaim (F : Federation) (now : Millis) (post : Post) : Prop :=
  F.acceptedAt post.providerId post.assertionId now = true ∧
    F.acceptedAt post.providerId post.assertionId
      (now + (F.signed post.providerId post.assertionId).claimLimit) = false

instance (F : Federation) (now : Millis) (post : Post) : Decidable (GoodClaim F now post) :=
  inferInstanceAs (Decidable (_ ∧ _))

def GoodClaims (F : Federation) (p : Pool Store Call) : Event Post Command Millis → Prop
  | .act i (.set true) =>
    match p.calls i with
    | some (.sent post _) => GoodClaim F p.store.now post
    | _ => True
  | _ => True

instance (F : Federation) (p : Pool Store Call) :
    (e : Event Post Command Millis) → Decidable (GoodClaims F p e)
  | .act i (.set true) =>
    match h : p.calls i with
    | some (.sent post _) => decidable_of_iff (GoodClaim F p.store.now post) (by simp [GoodClaims, h])
    | some (.posted _) | some (.validated _) | none => .isTrue (by simp [GoodClaims, h])
  | .act _ (.set false) | .act _ .validate | .act _ .send | .spawn _ _ | .abort _ | .env _ =>
    .isTrue trivial

/-- The assertion of a row is claimed for as long as it is accepted. -/
def Claimed (F : Federation) (s : Store) (a : Id × String) : Prop :=
  ∀ t, s.now ≤ t → F.acceptedAt a.1 a.2 t = true →
    (s.claims.get t (F.assertionKey a.1 a.2)).isSome

/-- What holds at all times. -/
structure Inv (F : Federation) (s : Store) : Prop where
  once : s.consumed.Nodup
  claimed : ∀ a ∈ s.consumed, Claimed F s a

/-- What a call knows: how long its claim is to last was reckoned in the past. -/
def Assert (F : Federation) (s : Store) : Call → Prop
  | .sent post ttlSec => ∃ c ≤ s.now, ttlSec = assertionTtlSeconds
      (F.signed post.providerId post.assertionId).notOnOrAfter (F.clockSkewSec post.providerId) c
  | _ => True

section

variable {F : Federation} {s t : Store} {post : Post} {ttlSec : Int} {key : String}

theorem setNx_eq_some (h : setNx s key ttlSec = some t) :
    s.claims.get s.now key = none ∧
      t = { s with claims := s.claims.set key "1" (some (s.now + ttlSec * 1000)) } := by
  unfold setNx at h
  split at h
  · cases h
  · rename_i hfree
    exact ⟨by simpa using hfree, (Option.some.inj h).symm⟩

theorem Claimed.setNx {a : Id × String} (h : Claimed F s a)
    (hset : setNx s key ttlSec = some t) : Claimed F t a := by
  obtain ⟨hfree, rfl⟩ := setNx_eq_some hset
  intro u hle hacc
  have hheld := h u hle hacc
  by_cases hkey : F.assertionKey a.1 a.2 = key
  · obtain ⟨v, hv⟩ := Option.isSome_iff_exists.mp hheld
    rw [hkey] at hv
    rw [Expiring.get_anti hle hv] at hfree
    cases hfree
  · simpa [Expiring.get, Expiring.set_of_ne hkey] using hheld

theorem claimed_setNx (hset : setNx s (F.assertionKey post.providerId post.assertionId) ttlSec = some t)
    (hcall : Assert F s (.sent post ttlSec)) (hgood : GoodClaim F s.now post) :
    Claimed F t (post.providerId, post.assertionId) := by
  obtain ⟨-, rfl⟩ := setNx_eq_some hset
  obtain ⟨c, hc, rfl⟩ := hcall
  intro u hle hacc
  have hlive := claim_outlasts hc hgood.1 hgood.2 hle hacc
  simpa [Expiring.get] using hlive

theorem Inv.setNx (h : Inv F s) (hset : Saml.setNx s key ttlSec = some t) : Inv F t := by
  obtain ⟨-, rfl⟩ := setNx_eq_some hset
  exact ⟨h.once, fun a ha ↦ (h.claimed a ha).setNx hset⟩

theorem Inv.consume (h : Inv F s)
    (hset : Saml.setNx s (F.assertionKey post.providerId post.assertionId) ttlSec = some t)
    (hcall : Assert F s (.sent post ttlSec)) (hgood : GoodClaim F s.now post) :
    Inv F (consume F t post) := by
  have ht := h.setNx hset
  have hclaimed := claimed_setNx hset hcall hgood
  obtain ⟨hfree, rfl⟩ := setNx_eq_some hset
  have hnew : (post.providerId, post.assertionId) ∉ s.consumed := by
    intro hmem
    have hheld := h.claimed _ hmem s.now le_rfl hgood.1
    rw [hfree] at hheld
    cases hheld
  unfold Saml.consume
  split
  · refine ⟨List.nodup_cons.mpr ⟨hnew, ht.once⟩, fun a ha ↦ ?_⟩
    obtain rfl | ha := List.mem_cons.mp ha
    · exact hclaimed
    · exact ht.claimed a ha
  · exact ht

theorem Inv.tick (h : Inv F s) {now : Millis} (hle : s.now ≤ now) : Inv F { s with now } :=
  ⟨h.once, fun a ha u hu ↦ h.claimed a ha u (hle.trans hu)⟩

theorem Assert.later (hle : s.now ≤ t.now) {k : Call} (h : Assert F s k) : Assert F t k := by
  cases k with
  | posted _ | validated _ => trivial
  | sent post ttlSec =>
    obtain ⟨c, hc, rfl⟩ := h
    exact ⟨c, hc.trans hle, rfl⟩

theorem act_cases {k : Call} {c : Command} {k' : Option Call} (h : act F s k c = some (t, k')) :
    (t = s ∧ (k' = none ∨ (∃ post, k' = some (.validated post)) ∨
      ∃ post, k' = some (.sent post (assertionTtlSeconds
        (F.signed post.providerId post.assertionId).notOnOrAfter
        (F.clockSkewSec post.providerId) s.now)))) ∨
    ∃ post ttlSec u answered, k = .sent post ttlSec ∧ c = .set answered ∧ k' = none ∧
      setNx s (F.assertionKey post.providerId post.assertionId) ttlSec = some u ∧
      t = if answered then consume F u post else u := by
  cases k with
  | posted post =>
    cases c with
    | validate =>
      simp only [act] at h
      split at h
      · obtain ⟨rfl, rfl⟩ := Prod.mk.inj (Option.some.inj h)
        exact .inl ⟨rfl, .inr (.inl ⟨post, rfl⟩)⟩
      · obtain ⟨rfl, rfl⟩ := Prod.mk.inj (Option.some.inj h)
        exact .inl ⟨rfl, .inl rfl⟩
    | send | set _ => cases h
  | validated post =>
    cases c with
    | send =>
      obtain ⟨rfl, rfl⟩ := Prod.mk.inj (Option.some.inj h)
      exact .inl ⟨rfl, .inr (.inr ⟨post, rfl⟩)⟩
    | validate | set _ => cases h
  | sent post ttlSec =>
    cases c with
    | set answered =>
      cases hset : setNx s (F.assertionKey post.providerId post.assertionId) ttlSec with
      | none =>
        simp only [act, hset] at h
        obtain ⟨rfl, rfl⟩ := Prod.mk.inj (Option.some.inj h)
        exact .inl ⟨rfl, .inl rfl⟩
      | some u =>
        simp only [act, hset] at h
        obtain ⟨rfl, rfl⟩ := Prod.mk.inj (Option.some.inj h)
        exact .inr ⟨post, ttlSec, u, answered, rfl, rfl, rfl, hset, rfl⟩
    | validate | send => cases h

theorem consume_now : (consume F s post).now = s.now := by
  unfold consume
  split <;> rfl

theorem program_keeps : (program F).Keeps (fun p e _ ↦ GoodClaims F p e) (Inv F)
    fun s _ k ↦ Assert F s k where
  spawn _ _ _ _ := trivial
  act p i k c s' k' hp hk hact hok := by
    have hcall := hp.2 i k hk
    obtain ⟨rfl, hnext⟩ | ⟨post, ttlSec, u, answered, rfl, rfl, rfl, hset, rfl⟩ :=
      act_cases hact
    · refine ⟨hp.1, fun l hl ↦ ?_, fun j l _ hj ↦ hp.2 j l hj⟩
      obtain rfl | ⟨post, rfl⟩ | ⟨post, rfl⟩ := hnext
      · cases hl
      · obtain rfl := Option.some.inj hl
        trivial
      · obtain rfl := Option.some.inj hl
        exact ⟨_, le_rfl, rfl⟩
    · have hnow : (if answered then consume F u post else u).now = p.store.now := by
        obtain ⟨-, rfl⟩ := setNx_eq_some hset
        split
        · exact consume_now
        · rfl
      refine ⟨?_, fun l hl ↦ absurd hl.symm (Option.some_ne_none l), fun j l _ hj ↦ (hp.2 j l hj).later hnow.ge⟩
      cases answered with
      | true =>
        have hgood : GoodClaim F p.store.now post := by simpa [GoodClaims, hk] using hok
        exact hp.1.consume hset hcall hgood
      | false => exact hp.1.setNx hset
  abort p i k hp _ := ⟨hp.1, fun j l _ hj ↦ hp.2 j l hj⟩
  env s now s' h henv := by
    simp only [program] at henv
    split at henv
    · rename_i hle
      obtain rfl := Option.some.inj henv
      exact ⟨h.tick hle, fun _ _ hk ↦ hk.later hle⟩
    · cases henv

end

/-- **An assertion is consumed at most once, over all time,** in every run in which claims
are set while the assertion is still accepted, and no assertion is accepted for longer than
a claim on it may be kept. -/
theorem run_consumed_once {F : Federation} {s : Store} {p : Pool Store Call}
    {es : List (Event Post Command Millis)} (h₀ : s.consumed = [])
    (hr : Run (program F).step (fun p e _ ↦ GoodClaims F p e) (Program.idle Call s) es p)
    (providerId : Id) (assertionId : String) :
    p.store.consumed.count (providerId, assertionId) ≤ 1 := by
  have hinv : Inv F s := ⟨by simp [h₀], by simp [h₀]⟩
  have hp := program_keeps.run (Program.holds_idle hinv) hr
  exact List.nodup_iff_count_le_one.mp hp.1.once _

/-! ## Assertions that outlast their claims -/

def openEnded : Federation where
  providers _ := { acsUrl := "https://app.example/acs" }
  signed _ _ := { notOnOrAfter := some (2 * 24 * 60 * 60 * 1000) }
  sha256 := id
  urlEquals a b := a = b
  mapsProfile _ _ := true

def briefly : Federation :=
  { openEnded with
    signed := fun _ _ ↦ { notBefore := some 0, notOnOrAfter := some (5 * 60 * 1000) } }

def postedTwice : List (Event Post Command Millis) :=
  [.spawn 0 ⟨"okta", "a1", none⟩, .spawn 1 ⟨"okta", "a1", none⟩, .act 0 .validate, .act 1 .validate,
    .act 0 .send, .act 1 .send, .act 1 (.set true), .act 0 (.set true)]

theorem run_consumed_once_briefly : ∃ p : Pool Store Call,
    p.store.consumed.count ("okta", "a1") ≤ 1 ∧ p.store.consumed = [("okta", "a1")] := by
  have h : execIf (program briefly).step (fun p e ↦ decide (GoodClaims briefly p e))
      (Program.idle Call { now := 0 }) postedTwice = some _ := rfl
  exact ⟨_, run_consumed_once rfl ((run_of_execIf h).mono fun _ _ _ ↦ of_decide_eq_true) _ _, rfl⟩

/-- A day after it was used the assertion of two days is used again. -/
theorem assertion_consumed_twice : ∃ es p,
    Run (program openEnded).step free (Program.idle Call { now := 0 }) es p ∧
      p.store.consumed.count ("okta", "a1") = 2 := by
  have h : exec (program openEnded).step (Program.idle Call { now := 0 })
      [.spawn 0 ⟨"okta", "a1", none⟩, .act 0 .validate, .act 0 .send, .act 0 (.set true),
        .env (24 * 60 * 60 * 1000),
        .spawn 0 ⟨"okta", "a1", none⟩, .act 0 .validate, .act 0 .send, .act 0 (.set true)] =
      some _ := rfl
  exact ⟨_, _, run_of_exec h, rfl⟩

end Shellius.Saml
