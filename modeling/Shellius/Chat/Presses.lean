import Shellius.Access.Sealing
import Shellius.Chat.Interactions
import Shellius.Lib.Words

/-!
# Presses

What is true of the presses in any run.  A press is reviewed only if it may be, whatever has come
before.  That it is reviewed once and no more needs Redis to keep the claim for as long as Slack
keeps sending, and that somebody who may decide a request does decide it needs the claim not to
have been wasted on somebody who may not.
-/

namespace Shellius.Chat

open Lib

section

variable {signing : Signing} {presses : Nat → Option Payload} {frontendUrl : String} {cfg : Config}
  {s s' : State} {d : Delivery} {a b : Arrival} {r : AccessRequest} {w : World} {key : String}

/-! ## What a press says -/

variable (presses) in
/-- What a press says by itself: who presses which button. -/
def Pressed (press : Nat) (a : Arrival) : Prop :=
  ∃ payload action, presses press = some payload ∧
    payload.names = some (a.teamId, a.slackUserId, action) ∧
    parseValue action.value = some (a.verb, a.requestId) ∧
    a.key = claimKey a.teamId payload.messageTs action.actionId a.requestId

variable (signing) in
/-- The destination that a press is taken to come from. -/
def Reached (s : State) (d : Delivery) (a : Arrival) : Prop :=
  ∃ target, destinationForTeam s a.teamId = some target ∧ target.orgId = a.orgId ∧
    verifySlackSignature signing target.config.signingSecret d s.world.now = .ok ()

theorem arrive_eq_ok : arrive signing presses frontendUrl s d = .ok a ↔
    Pressed presses d.press a ∧ Reached signing s d a ∧
      resolveUser s a.orgId a.teamId a.slackUserId = some a.user := by
  constructor
  · intro h
    unfold arrive at h
    split at h
    · cases h
    · rename_i payload hpayload
      split at h
      · cases h
      · rename_i teamId slackUserId action hnames
        split at h
        · cases h
        · rename_i target htarget
          split at h
          · cases h
          · rename_i hverified
            split at h
            · cases h
            · rename_i user huser
              split at h
              · cases h
              · rename_i verb requestId hvalue
                obtain rfl := Except.ok.inj h
                exact ⟨⟨payload, action, hpayload, hnames, hvalue, rfl⟩,
                  ⟨target, htarget, rfl, hverified⟩, huser⟩
  · rintro ⟨⟨payload, action, hpayload, hnames, hvalue, hkey⟩, ⟨target, htarget, horg, hverified⟩,
      huser⟩
    unfold arrive
    rw [← horg] at huser
    simp only [hpayload, hnames, htarget, hverified, huser, hvalue]
    rw [horg, ← hkey]

theorem Pressed.same {press : Nat} (ha : Pressed presses press a) (hb : Pressed presses press b) :
    a.teamId = b.teamId ∧ a.slackUserId = b.slackUserId ∧ a.verb = b.verb ∧
      a.requestId = b.requestId ∧ a.key = b.key := by
  obtain ⟨payload, action, hpayload, hnames, hvalue, hkey⟩ := ha
  obtain ⟨payload', action', hpayload', hnames', hvalue', hkey'⟩ := hb
  obtain rfl := Option.some.inj (hpayload.symm.trans hpayload')
  obtain ⟨hteam, hrest⟩ := Prod.mk.inj (Option.some.inj (hnames.symm.trans hnames'))
  obtain ⟨huser, rfl⟩ := Prod.mk.inj hrest
  obtain ⟨hverb, hrequest⟩ := Prod.mk.inj (Option.some.inj (hvalue.symm.trans hvalue'))
  exact ⟨hteam, huser, hverb, hrequest, by rw [hkey, hkey', hteam, hrequest]⟩

def requestOf (key : String) : Id := String.ofList (((key.toList.splitOn ':').getLast?).getD [])

theorem colon_notMem_of_parseValue {value : String} {verb : Decision} {requestId : Id}
    (h : parseValue value = some (verb, requestId)) : ':' ∉ requestId.toList := by
  unfold parseValue at h
  cases hsplit : value.toList.splitOn ':' with
  | nil => exact absurd hsplit (List.splitOn_ne_nil _ _)
  | cons head rest =>
    rw [hsplit] at h
    dsimp only at h
    split_ifs at h with hempty <;> cases h
    all_goals
      cases rest with
      | nil => exact absurd rfl hempty
      | cons part parts =>
        rw [List.headD_cons, String.toList_ofList]
        rw [List.headD_cons] at hempty
        have hmem : part ∈ words (fun c ↦ !(c == ':')) value.toList := by
          refine List.mem_filter.mpr ⟨?_, ?_⟩
          · have hsplit' : value.toList.splitOnP (fun c ↦ !!(c == ':')) = head :: part :: parts := by
              rw [← hsplit, List.splitOn_eq_splitOnP]
              exact congrArg (List.splitOnP · _) (funext fun c ↦ Bool.not_not _)
            rw [hsplit']
            simp
          · have hne : part ≠ [] := fun hnil ↦ hempty (by rw [hnil])
            simpa using hne
        intro hcolon
        exact absurd (keep_of_mem_words hmem ':' hcolon) (by decide)

theorem Pressed.requestOf_key {press : Nat} (h : Pressed presses press a) :
    requestOf a.key = a.requestId := by
  obtain ⟨payload, action, -, -, hvalue, hkey⟩ := h
  have hlist : a.key.toList = (a.teamId ++ ":" ++ payload.messageTs.getD "none" ++ ":" ++
      action.actionId).toList ++ ':' :: a.requestId.toList := by
    rw [hkey, claimKey, String.toList_append, String.toList_append, List.append_assoc]
    rfl
  rw [requestOf, hlist, List.splitOn_append_cons_self,
    List.splitOn_eq_singleton (colon_notMem_of_parseValue hvalue), List.getLast?_append,
    List.getLast?_singleton, Option.some_or, Option.getD_some]
  exact String.ofList_toList

/-! ## Requests that are settled -/

/-- A request that has been drawn and is not pending. -/
def Settled (w : World) (requestId : Id) : Prop :=
  requestId ∈ w.drawn ∧ ∀ r ∈ w.accessRequests, r.id = requestId → r.status ≠ .pending

theorem Settled.step {w' : World} {op : World.Op} {requestId : Id} (hkeyed : w.Keyed)
    (h : Settled w requestId) (hs : World.step cfg w op = some w') : Settled w' requestId := by
  refine ⟨World.drawn_step hs _ h.1, fun r hr hid hpending ↦ ?_⟩
  cases World.step_rows hkeyed.requests hs hr with
  | kept hr => exact h.2 r hr hid hpending
  | detached hq => exact h.2 _ hq hid hpending
  | submitted hnew hq => exact hnew (submit_id hq ▸ hid ▸ h.1)
  | reviewed _ _ hq =>
    obtain ⟨-, -, -, rfl⟩ := reviewRow_ok hq
    exact decideRow_ne_pending hpending
  | revoked => simp [revokeRow] at hpending
  | expired => simp [expireRow] at hpending
  | stale => simp [expireRow] at hpending
  | linked _ hq _ => exact h.2 _ (lookup_spec hq).1 hid hpending
  | granted hnew hg => exact hnew (hg.id ▸ hid ▸ h.1)

theorem settled_of_review {params : ReviewParams} {w' : World} (hkeyed : w.Keyed)
    (h : w.review params = .ok w') : Settled w' params.requestId := by
  obtain ⟨decision, r, r', -, hr, hr', rfl⟩ := World.review_ok h
  obtain ⟨hr, hid⟩ := lookup_spec hr
  refine ⟨hid ▸ hkeyed.drawn r hr, fun q hq hqid hpending ↦ ?_⟩
  rcases mem_modify.mp hq with ⟨-, hne⟩ | ⟨-, -, -, rfl⟩
  · exact hne (hqid.trans hid.symm)
  · obtain ⟨-, -, -, rfl⟩ := reviewRow_ok hr'
    exact decideRow_ne_pending hpending

theorem not_settled_of_review {params : ReviewParams} {w' : World} (h : w.review params = .ok w') :
    ¬ Settled w params.requestId := by
  obtain ⟨decision, r, r', -, hr, hr', -⟩ := World.review_ok h
  obtain ⟨hr, hid⟩ := lookup_spec hr
  exact fun hsettled ↦ hsettled.2 r hr hid (reviewRow_ok hr').2.2.1

/-! ## What a delivery does -/

variable (signing presses frontendUrl) in
inductive Effect (s : State) (d : Delivery) : State → Prop
  | idle (links : Expiring String PendingLink Millis) : Effect s d { s with links }
  | stopped {a : Arrival} (harrive : arrive signing presses frontendUrl s d = .ok a) :
      Effect s d { s with claims := takeClaim s d a.key, wasted := waste s d a.key }
  | failed {a : Arrival} {r : AccessRequest}
      (h : outcome signing presses frontendUrl s d = .reviewed a r) :
      Effect s d { s with
        claims := takeClaim s d a.key
        wasted := waste s d a.key
        calls := s.calls ++ [⟨d.press, a.key, s.world.now, d.redisUp, a.params⟩] }
  | decided {a : Arrival} {r : AccessRequest} {w : World}
      (h : outcome signing presses frontendUrl s d = .reviewed a r)
      (hreview : s.world.review a.params = .ok w) :
      Effect s d { s with
        claims := takeClaim s d a.key
        world := w
        calls := s.calls ++ [⟨d.press, a.key, s.world.now, d.redisUp, a.params⟩] }

theorem outcome_eq_reviewed : outcome signing presses frontendUrl s d = .reviewed a r ↔
    arrive signing presses frontendUrl s d = .ok a ∧ claimFree s d a.key = true ∧
      gate frontendUrl s a = .ok r := by
  unfold outcome
  constructor
  · intro h
    split at h
    · cases h
    · rename_i b hb
      split at h
      · cases h
      · rename_i hfree
        split at h
        · cases h
        · rename_i q hq
          cases h
          exact ⟨hb, not_not.mp hfree, hq⟩
  · rintro ⟨harrive, hfree, hgate⟩
    simp only [harrive, hfree, not_true_eq_false, if_false, hgate]

theorem effect_interactions (s : State) (d : Delivery) :
    Effect signing presses frontendUrl s d (interactions signing presses frontendUrl s d).1 := by
  unfold interactions
  split
  · exact .idle _
  · exact .idle s.links
  · rename_i a response h
    refine .stopped ?_
    unfold outcome at h
    split at h
    · cases h
    · rename_i b hb
      split at h
      · cases h
      · split at h
        · cases h
          exact hb
        · cases h
  · rename_i a r h
    split
    · exact .failed h
    · rename_i w hw
      exact .decided h hw

/-- What a delivery does to the requests is what `review` does. -/
theorem Effect.world_eq (h : Effect signing presses frontendUrl s d s') :
    s'.world = s.world ∨ ∃ a r, outcome signing presses frontendUrl s d = .reviewed a r ∧
      s.world.review a.params = .ok s'.world := by
  cases h with
  | idle links => exact .inl rfl
  | stopped harrive => exact .inl rfl
  | failed h => exact .inl rfl
  | decided h hreview => exact .inr ⟨_, _, h, hreview⟩

/-! ## The claims -/

/-- A claim is kept for as long as it was taken for. -/
def Held (s : State) (key : String) (t : Millis) : Prop :=
  ∃ e t', s.claims key = some e ∧ e.expiresAt = some t' ∧ t + claimTtlMs ≤ t'

theorem Held.claimFree_eq_false {t : Millis} (h : Held s key t)
    (hlt : s.world.now < t + claimTtlMs) (hup : d.redisUp = true) : claimFree s d key = false := by
  obtain ⟨e, t', he, ht', hle⟩ := h
  have hlive : e.live s.world.now = true := by
    rw [Entry.live, ht', Option.all_some]
    exact decide_eq_true (Int.lt_of_lt_of_le hlt hle)
  have hget : Expiring.get s.world.now s.claims key = some e.value :=
    Expiring.get_eq_some.mpr ⟨e, he, hlive, rfl⟩
  rw [claimFree, hup, hget]
  rfl

/-- What is known of the claims: one that is kept was wasted, or its request is settled. -/
structure Sound (presses : Nat → Option Payload) (s : State) : Prop where
  keyed : s.world.Keyed
  claims : ∀ key e, s.claims key = some e → ∃ t, e.expiresAt = some (t + claimTtlMs) ∧
    (⟨key, t⟩ ∈ s.wasted ∨ Settled s.world (requestOf key))
  wasted : ∀ x ∈ s.wasted, x.instant ≤ s.world.now ∧ Held s x.key x.instant
  calls : ∀ c ∈ s.calls, c.instant ≤ s.world.now ∧ (c.recorded = true → Held s c.key c.instant) ∧
    ∃ a, Pressed presses c.press a ∧ a.key = c.key

theorem Held.take {t : Millis} {j : String} (h : Held s key t) (ht : t ≤ s.world.now)
    (hclaims : s'.claims = takeClaim s d j) : Held s' key t := by
  obtain ⟨e, t', he, ht', hle⟩ := h
  unfold Held
  rw [hclaims, takeClaim]
  split
  · by_cases hj : key = j
    · subst hj
      exact ⟨_, _, Expiring.set_self, rfl, Int.add_le_add_right ht claimTtlMs⟩
    · exact ⟨e, t', (Expiring.set_of_ne hj).trans he, ht', hle⟩
  · exact ⟨e, t', he, ht', hle⟩

theorem held_takeClaim (hup : d.redisUp = true) (hclaims : s'.claims = takeClaim s d key) :
    Held s' key s.world.now := by
  unfold Held
  rw [hclaims, takeClaim, if_pos hup]
  exact ⟨_, _, Expiring.set_self, rfl, Int.le_refl _⟩

theorem takeClaim_eq_some {j : String} {e : Entry Unit Millis} (h : takeClaim s d j key = some e) :
    s.claims key = some e ∨ d.redisUp = true ∧ key = j ∧
      e.expiresAt = some (s.world.now + claimTtlMs) := by
  unfold takeClaim at h
  split at h
  · rename_i hup
    by_cases hj : key = j
    · subst hj
      rw [Expiring.set_self] at h
      obtain rfl := Option.some.inj h
      exact .inr ⟨hup, rfl, rfl⟩
    · rw [Expiring.set_of_ne hj] at h
      exact .inl h
  · exact .inl h

theorem mem_waste {x : Waste} : x ∈ waste s d key ↔
    x ∈ s.wasted ∨ d.redisUp = true ∧ x = ⟨key, s.world.now⟩ := by
  unfold waste
  split
  · rename_i hup
    rw [List.mem_append, List.mem_singleton, hup]
    simp
  · rename_i hup
    simp [hup]

theorem Sound.waste {calls : List Call} (h : Sound presses s)
    (hcalls : ∀ c ∈ calls, c ∈ s.calls ∨ c.instant = s.world.now ∧ c.recorded = d.redisUp ∧
      c.key = key ∧ ∃ a, Pressed presses c.press a ∧ a.key = c.key) :
    Sound presses { s with
      claims := takeClaim s d key, wasted := Chat.waste s d key, calls := calls } := by
  refine ⟨h.keyed, fun k e he ↦ ?_, fun x hx ↦ ?_, fun c hc ↦ ?_⟩
  · rcases takeClaim_eq_some he with hold | ⟨hup, rfl, hexpires⟩
    · obtain ⟨t, ht, hwhy⟩ := h.claims k e hold
      exact ⟨t, ht, hwhy.imp_left fun hw ↦ mem_waste.mpr (.inl hw)⟩
    · exact ⟨s.world.now, hexpires, .inl (mem_waste.mpr (.inr ⟨hup, rfl⟩))⟩
  · rcases mem_waste.mp hx with hx | ⟨hup, rfl⟩
    · obtain ⟨hle, hheld⟩ := h.wasted x hx
      exact ⟨hle, hheld.take hle rfl⟩
    · exact ⟨Int.le_refl _, held_takeClaim hup rfl⟩
  · rcases hcalls c hc with hc | ⟨hinstant, hrecorded, hkey, hpressed⟩
    · obtain ⟨hle, hheld, hpressed⟩ := h.calls c hc
      exact ⟨hle, fun hr ↦ (hheld hr).take hle rfl, hpressed⟩
    · refine ⟨Int.le_of_eq hinstant, fun hr ↦ ?_, hpressed⟩
      rw [hkey, hinstant]
      exact held_takeClaim (hrecorded ▸ hr) rfl

theorem mem_calls_append {c x : Call} (h : x ∈ s.calls ++ [c]) : x ∈ s.calls ∨ x = c := by
  rcases List.mem_append.mp h with h | h
  · exact .inl h
  · exact .inr (List.mem_singleton.mp h)

theorem now_of_review {params : ReviewParams} (h : s.world.review params = .ok w) :
    w.now = s.world.now := by
  obtain ⟨decision, r, r', -, -, -, rfl⟩ := World.review_ok h
  rfl

theorem step_of_review {params : ReviewParams} (h : s.world.review params = .ok w) :
    World.step World.plainConfig s.world (.review params) = some w := by
  rw [World.step, h]
  rfl

theorem Sound.deliver (h : Sound presses s) (he : Effect signing presses frontendUrl s d s') :
    Sound presses s' := by
  have hnew : ∀ {a : Arrival} {r : AccessRequest},
      outcome signing presses frontendUrl s d = .reviewed a r →
      ∃ b, Pressed presses d.press b ∧ b.key = a.key := by
    intro a r hr
    exact ⟨a, (arrive_eq_ok.mp (outcome_eq_reviewed.mp hr).1).1, rfl⟩
  cases he with
  | idle links => exact ⟨h.keyed, h.claims, h.wasted, h.calls⟩
  | stopped harrive => exact h.waste fun c hc ↦ .inl hc
  | failed hr =>
    refine h.waste fun c hc ↦ (mem_calls_append hc).imp_right ?_
    rintro rfl
    exact ⟨rfl, rfl, rfl, hnew hr⟩
  | @decided a r w hr hreview =>
    have hnow := now_of_review hreview
    have hstep := step_of_review hreview
    refine ⟨h.keyed.step hstep, fun k e he ↦ ?_, fun x hx ↦ ?_, fun c hc ↦ ?_⟩
    · rcases takeClaim_eq_some he with hold | ⟨-, rfl, hexpires⟩
      · obtain ⟨t, ht, hwhy⟩ := h.claims k e hold
        exact ⟨t, ht, hwhy.imp_right fun hsettled ↦ hsettled.step h.keyed hstep⟩
      · refine ⟨s.world.now, hexpires, .inr ?_⟩
        obtain ⟨b, hb, hkey⟩ := hnew hr
        rw [(arrive_eq_ok.mp (outcome_eq_reviewed.mp hr).1).1.requestOf_key]
        exact settled_of_review h.keyed hreview
    · obtain ⟨hle, hheld⟩ := h.wasted x hx
      exact ⟨hnow ▸ hle, hheld.take hle rfl⟩
    · rcases mem_calls_append hc with hc | rfl
      · obtain ⟨hle, hheld, hpressed⟩ := h.calls c hc
        exact ⟨hnow ▸ hle, fun hrec ↦ (hheld hrec).take hle rfl, hpressed⟩
      · exact ⟨Int.le_of_eq hnow.symm, fun hrec ↦ held_takeClaim hrec rfl, hnew hr⟩

theorem Sound.step {e : Event} (h : Sound presses s)
    (hs : step signing presses frontendUrl cfg s e = some s') : Sound presses s' := by
  cases e with
  | deliver d =>
    obtain rfl := Option.some.inj hs
    exact h.deliver (effect_interactions s d)
  | configure destinations identities allowProd host =>
    obtain rfl := Option.some.inj hs
    exact ⟨h.keyed, h.claims, h.wasted, h.calls⟩
  | serve op =>
    obtain ⟨w, hw, rfl⟩ := Option.map_eq_some_iff.mp hs
    have hle := World.now_le_step hw
    refine ⟨h.keyed.step hw, fun k e he ↦ ?_, fun x hx ↦ ?_, fun c hc ↦ ?_⟩
    · obtain ⟨t, ht, hwhy⟩ := h.claims k e he
      exact ⟨t, ht, hwhy.imp_right fun hsettled ↦ hsettled.step h.keyed hw⟩
    · obtain ⟨hx, hheld⟩ := h.wasted x hx
      exact ⟨Int.le_trans hx hle, hheld⟩
    · obtain ⟨hc, hheld, hpressed⟩ := h.calls c hc
      exact ⟨Int.le_trans hc hle, hheld, hpressed⟩

/-! ## Who may decide -/

variable (signing presses) in
/-- A press by somebody who is linked, in the organization of the destination that posted the
message, and whom the service would let decide; what it would be called with is theirs to say. -/
structure Entitled (s : State) (d : Delivery) (a : Arrival) : Prop where
  pressed : Pressed presses d.press a
  posted : ∃ post ∈ s.destinations, post.orgId = a.orgId ∧ post.platform = .slack ∧
    post.mode = .app ∧ verifySlackSignature signing post.config.signingSecret d s.world.now = .ok ()
  linked : resolveUser s a.orgId a.teamId a.slackUserId = some a.user
  request : ∃ r ∈ s.world.accessRequests, r.id = a.requestId ∧ r.orgId = a.orgId ∧
    (onProduction s r = true → a.verb = .approve → s.allowProd a.orgId = true)
  web : ∃ params w, params.requestId = a.requestId ∧ params.reviewerId = a.user.id ∧
    params.decision = some a.verb ∧ s.world.review params = .ok w

def statusOf : Decision → AccessRequestStatus
  | .approve => .approved
  | .deny => .denied

variable (signing presses frontendUrl) in
def Decides (s : State) (d : Delivery) (a : Arrival) : Prop :=
  ∃ r ∈ (interactions signing presses frontendUrl s d).1.world.accessRequests,
    r.id = a.requestId ∧ r.status = statusOf a.verb ∧ r.reviewerId = some a.user.id

/-- No claim on the button was wasted that Redis still has, if it can be asked. -/
def Spared (s : State) (d : Delivery) (a : Arrival) : Prop :=
  d.redisUp = true → ∀ x ∈ s.wasted, x.key = a.key → x.instant + claimTtlMs ≤ s.world.now

theorem review_congr {params params' : ReviewParams} (h : s.world.review params = .ok w)
    (hrequest : params'.requestId = params.requestId)
    (hreviewer : params'.reviewerId = params.reviewerId)
    (hdecision : params'.decision = params.decision) :
    ∃ w', s.world.review params' = .ok w' := by
  obtain ⟨decision, r, r', hparams, hr, hrow, -⟩ := World.review_ok h
  obtain ⟨hcheck, hcan, hpending, -⟩ := reviewRow_ok hrow
  have hparams' : checkReviewParams params' = .ok decision := by
    rw [← hparams]
    unfold checkReviewParams
    rw [hrequest, hreviewer, hdecision]
  have hcheck' : checkReview params' r = .ok () := by
    rw [← hcheck]
    unfold checkReview
    rw [hreviewer]
  obtain ⟨q, hrow'⟩ : ∃ q, reviewRow s.world.db s.world.now params' decision r = .ok q := by
    unfold reviewRow
    rw [hcheck', hreviewer, if_neg (not_not.mpr hcan)]
    exact ⟨_, rfl⟩
  refine ⟨{ s.world with
    accessRequests := modify AccessRequest.id r.id (fun _ ↦ q) s.world.accessRequests }, ?_⟩
  rw [World.review, hparams']
  dsimp only
  rw [hrequest, hr]
  dsimp only
  rw [hrow']

theorem exists_of_review {params : ReviewParams} {verb : Decision}
    (hverb : params.decision = some verb) (h : s.world.review params = .ok w) :
    ∃ r ∈ w.accessRequests, r.id = params.requestId ∧ r.status = statusOf verb ∧
      r.reviewerId = some params.reviewerId := by
  obtain ⟨decision, r, r', hparams, hr, hrow, rfl⟩ := World.review_ok h
  obtain ⟨hr, hid⟩ := lookup_spec hr
  have hdecision : decision = verb := by
    unfold checkReviewParams at hparams
    split_ifs at hparams
    rw [hverb] at hparams
    exact (Except.ok.inj hparams).symm
  obtain ⟨-, -, -, rfl⟩ := reviewRow_ok hrow
  subst hdecision
  refine ⟨_, mem_modify.mpr (.inr ⟨r, hr, rfl, rfl⟩), ?_⟩
  cases decision with
  | approve => exact ⟨hid, rfl, rfl⟩
  | deny => exact ⟨hid, rfl, rfl⟩

theorem findRequest_spec (h : findRequest s a = some r) :
    r ∈ s.world.accessRequests ∧ r.id = a.requestId ∧ r.orgId = a.orgId := by
  have hp := List.find?_some h
  simp only [decide_eq_true_eq] at hp
  exact ⟨List.mem_of_find?_eq_some h, hp⟩

theorem gate_eq_ok (h : gate frontendUrl s a = .ok r) : findRequest s a = some r ∧
    (onProduction s r = true → a.verb = .approve → s.allowProd a.orgId = true) := by
  unfold gate at h
  split at h
  · cases h
  · rename_i q hq
    split at h
    · cases h
    · rename_i hprod
      obtain rfl := Except.ok.inj h
      exact ⟨hq, fun hon hverb ↦ by_contra fun hallow ↦ hprod ⟨hon, hverb, hallow⟩⟩

theorem Sound.claimFree_of_spared (h : Sound presses s) (hpressed : Pressed presses d.press a)
    (hspared : Spared s d a) (hunsettled : ¬ Settled s.world a.requestId) :
    claimFree s d a.key = true := by
  by_contra hfree
  simp only [claimFree, Bool.or_eq_true, Bool.not_eq_true', not_or, Bool.not_eq_false,
    Option.isNone_iff_eq_none] at hfree
  obtain ⟨hup, hget⟩ := hfree
  obtain ⟨v, hv⟩ := Option.ne_none_iff_exists'.mp hget
  obtain ⟨e, he, hlive, -⟩ := Expiring.get_eq_some.mp hv
  obtain ⟨t, ht, hwhy⟩ := h.claims a.key e he
  rcases hwhy with hwasted | hsettled
  · have hover := hspared hup _ hwasted rfl
    rw [Entry.live, ht, Option.all_some, decide_eq_true_eq] at hlive
    exact absurd hlive (Int.not_lt.mpr hover)
  · rw [hpressed.requestOf_key] at hsettled
    exact hunsettled hsettled

theorem Sound.spared_of_claimFree (h : Sound presses s) (hfree : claimFree s d a.key = true) :
    Spared s d a := by
  intro hup x hx hkey
  by_contra hlt
  have hheld := (h.wasted x hx).2
  rw [hkey] at hheld
  rw [hheld.claimFree_eq_false (Int.not_le.mp hlt) hup] at hfree
  cases hfree

/-- Who may decide a request does decide it, unless the press is not taken to come from the
organization, or the claim was wasted on somebody else. -/
theorem decides_iff (h : Sound presses s) (hentitled : Entitled signing presses s d a) :
    Decides signing presses frontendUrl s d a ↔ Reached signing s d a ∧ Spared s d a := by
  obtain ⟨r, hr, hrid, hrorg, hallowed⟩ := hentitled.request
  obtain ⟨params, w, hrequest, hreviewer, hdecision, hweb⟩ := hentitled.web
  have hunsettled : ¬ Settled s.world a.requestId := by
    rw [← hrequest]
    exact not_settled_of_review hweb
  have hinj : ∀ q ∈ s.world.accessRequests, q.id = a.requestId → q = r := fun q hq hid ↦
    List.inj_on_of_nodup_map h.keyed.requests hq hr (hid.trans hrid.symm)
  constructor
  · rintro ⟨q, hq, hqid, hqstatus, -⟩
    have heffect : Effect signing presses frontendUrl s d
        (interactions signing presses frontendUrl s d).1 := effect_interactions s d
    rcases heffect.world_eq with hworld | ⟨b, p, hb, -⟩
    · rw [hworld] at hq
      obtain rfl := hinj q hq hqid
      refine absurd ⟨hqid ▸ h.keyed.drawn q hq, fun p hp hpid ↦ ?_⟩ hunsettled
      rw [hinj p hp hpid, hqstatus]
      cases a.verb with
      | approve => decide
      | deny => decide
    · obtain ⟨harrive, hfree, hgate⟩ := outcome_eq_reviewed.mp hb
      obtain ⟨hpressed, ⟨target, htarget, htargetOrg, hverified⟩, -⟩ := arrive_eq_ok.mp harrive
      obtain ⟨hteam, -, -, hrequestId, hkey⟩ := hpressed.same hentitled.pressed
      obtain ⟨hp, hpid, hporg⟩ := findRequest_spec (gate_eq_ok hgate).1
      obtain rfl := hinj p hp (hpid.trans hrequestId)
      rw [hkey] at hfree
      exact ⟨⟨target, hteam ▸ htarget, htargetOrg.trans (hporg.symm.trans hrorg), hverified⟩,
        h.spared_of_claimFree hfree⟩
  · rintro ⟨hreached, hspared⟩
    have harrive : arrive signing presses frontendUrl s d = .ok a :=
      arrive_eq_ok.mpr ⟨hentitled.pressed, hreached, hentitled.linked⟩
    have hfree := h.claimFree_of_spared hentitled.pressed hspared hunsettled
    have hfind : findRequest s a = some r := by
      cases hq : findRequest s a with
      | none => exact absurd (List.find?_eq_none.mp hq r hr) (by simp [hrid, hrorg])
      | some q =>
        obtain ⟨hmem, hid, -⟩ := findRequest_spec hq
        rw [hinj q hmem hid]
    have hgate : gate frontendUrl s a = .ok r := by
      rw [gate, hfind]
      exact if_neg fun hprod ↦ hprod.2.2 (hallowed hprod.1 hprod.2.1)
    obtain ⟨w', hw'⟩ : ∃ w', s.world.review a.params = .ok w' :=
      review_congr hweb hrequest.symm hreviewer.symm hdecision.symm
    have houtcome := outcome_eq_reviewed.mpr ⟨harrive, hfree, hgate⟩
    have hverb : a.params.decision = some a.verb := rfl
    obtain ⟨q, hq, hqid, hqstatus, hqreviewer⟩ := exists_of_review hverb hw'
    refine ⟨q, ?_, hqid, hqstatus, hqreviewer⟩
    rw [interactions, houtcome]
    dsimp only
    rw [hw']
    exact hq

/-! ## What is reviewed -/

variable (signing presses) in
/-- What `review` may be called with: the presser has a confirmed identity, is active in the
organization of the request and of the destination under whose secret the press is signed, and
approves a request for a production server only if the organization lets them. -/
def Lawful (s : State) (d : Delivery) (params : ReviewParams) : Prop :=
  ∃ payload action identity user r post verb,
    presses d.press = some payload ∧
    payload.names = some (identity.workspaceId, identity.externalUserId, action) ∧
    identity ∈ s.identities ∧ identity.platform = .slack ∧ identity.linkedVia = "confirmed" ∧
    identity.orgId = r.orgId ∧ identity.userId = user.id ∧
    user ∈ s.world.db.users ∧ user.orgId = r.orgId ∧ user.status = .active ∧
    user.deletedAt = none ∧ user.kind = .human ∧
    r ∈ s.world.accessRequests ∧
    post ∈ s.destinations ∧ post.orgId = r.orgId ∧
    verifySlackSignature signing post.config.signingSecret d s.world.now = .ok () ∧
    params.requestId = r.id ∧ params.reviewerId = user.id ∧ params.decision = some verb ∧
    (verb = .approve → onProduction s r = true → s.allowProd r.orgId = true)

theorem mem_destinations_of_destinationForTeam {teamId : String} {target : ChatDestination}
    (h : destinationForTeam s teamId = some target) : target ∈ s.destinations := by
  unfold destinationForTeam at h
  dsimp only at h
  split at h
  · rename_i row hrow
    obtain rfl := Option.some.inj h
    exact (List.mem_filter.mp (List.mem_of_find?_eq_some hrow)).1
  · split at h
    · rename_i row hrow
      obtain rfl := Option.some.inj h
      have hmem : row ∈ ((s.destinations.filter fun row ↦ row.platform = .slack ∧ row.mode = .app).filter
        fun row ↦ (truthy row.config.botToken).isSome) := hrow ▸ List.mem_singleton_self row
      exact (List.mem_filter.mp (List.mem_filter.mp hmem).1).1
    · cases h

theorem resolveUser_spec {orgId : Id} {workspaceId externalUserId : String} {user : User}
    (h : resolveUser s orgId workspaceId externalUserId = some user) :
    (∃ i ∈ s.identities, i.orgId = orgId ∧ i.platform = .slack ∧ i.workspaceId = workspaceId ∧
      i.externalUserId = externalUserId ∧ i.linkedVia = "confirmed" ∧ i.userId = user.id) ∧
      user ∈ s.world.db.users ∧ user.orgId = orgId ∧ user.status = .active ∧
      user.deletedAt = none ∧ user.kind = .human := by
  unfold resolveUser at h
  split at h
  · cases h
  · rename_i i hi
    split at h
    · cases h
    · rename_i hlinked
      obtain ⟨hlookup, huser⟩ := Option.filter_eq_some_iff.mp h
      obtain ⟨hmem, hid⟩ := lookup_spec hlookup
      have hp := List.find?_some hi
      simp only [decide_eq_true_eq] at hp huser
      exact ⟨⟨i, List.mem_of_find?_eq_some hi, hp.1, hp.2.1, hp.2.2.1, hp.2.2.2,
        not_not.mp hlinked, hid.symm⟩, hmem, huser.2.2.2, huser.2.1, huser.1, huser.2.2.1⟩

/-- Whatever `review` is called with, it may be called with. -/
theorem lawful_of_called {params : ReviewParams}
    (h : called signing presses frontendUrl s d = some params) :
    Lawful signing presses s d params := by
  unfold called at h
  split at h
  · rename_i a r hreviewed
    obtain rfl := Option.some.inj h
    obtain ⟨harrive, -, hgate⟩ := outcome_eq_reviewed.mp hreviewed
    obtain ⟨hpressed, ⟨post, hpost, hpostOrg, hverified⟩, huser⟩ := arrive_eq_ok.mp harrive
    obtain ⟨payload, action, hpayload, hnames, -, -⟩ := hpressed
    obtain ⟨⟨i, hi, hiOrg, hplatform, hteam, hslack, hlinked, hiUser⟩, hmem, horg, hactive,
      hdeleted, hkind⟩ := resolveUser_spec huser
    obtain ⟨hfind, hallowed⟩ := gate_eq_ok hgate
    obtain ⟨hr, hrid, hrorg⟩ := findRequest_spec hfind
    refine ⟨payload, action, i, a.user, r, post, a.verb, hpayload, ?_, hi, hplatform, hlinked,
      hiOrg.trans hrorg.symm, hiUser, hmem, horg.trans hrorg.symm, hactive, hdeleted, hkind, hr,
      mem_destinations_of_destinationForTeam hpost, hpostOrg.trans hrorg.symm, hverified,
      hrid.symm, rfl, rfl, fun hverb hprod ↦ ?_⟩
    · rw [hteam, hslack]
      exact hnames
    · rw [hrorg]
      exact hallowed hprod hverb
  · cases h

/-! ## Runs -/

/-- Nobody has pressed anything yet. -/
structure Fresh (s : State) : Prop where
  keyed : s.world.Keyed
  claims : s.claims = fun _ ↦ none
  calls : s.calls = []
  wasted : s.wasted = []

theorem Fresh.sound (h : Fresh s) : Sound presses s := by
  refine ⟨h.keyed, fun key e he ↦ ?_, fun x hx ↦ ?_, fun c hc ↦ ?_⟩
  · rw [h.claims] at he
    cases he
  · rw [h.wasted] at hx
    cases hx
  · rw [h.calls] at hc
    cases hc

variable (signing presses frontendUrl) in
/-- What is asked of a step. -/
def Decided (s : State) : Event → State → Prop
  | .deliver d, s' =>
    (∀ params, called signing presses frontendUrl s d = some params →
      Lawful signing presses s d params) ∧
    ∀ a, Entitled signing presses s d a →
      ∃ r ∈ s'.world.accessRequests,
        r.id = a.requestId ∧ r.status = statusOf a.verb ∧ r.reviewerId = some a.user.id
  | _, _ => True

variable (signing presses) in
/-- When a press that has been reviewed is sent again, Redis answers and has recorded a claim on
the button that is not over yet; when somebody presses who may decide, the press is taken to come
from their organization, and no claim on the button was wasted that is not over yet. -/
def Spaced (s : State) : Event → State → Prop
  | .deliver d, _ =>
    (∀ c ∈ s.calls, c.press = d.press → d.redisUp = true ∧
      ∃ b ∈ s.calls, b.key = c.key ∧ b.recorded = true ∧
        s.world.now < b.instant + claimTtlMs) ∧
    ∀ a, Entitled signing presses s d a → Reached signing s d a ∧ Spared s d a
  | _, _ => True

theorem nodup_step {e : Event} (h : Sound presses s) (hnodup : (s.calls.map Call.press).Nodup)
    (hs : step signing presses frontendUrl cfg s e = some s')
    (hspaced : Spaced signing presses s e s') : (s'.calls.map Call.press).Nodup := by
  cases e with
  | configure destinations identities allowProd host =>
    obtain rfl := Option.some.inj hs
    exact hnodup
  | serve op =>
    obtain ⟨w, hw, rfl⟩ := Option.map_eq_some_iff.mp hs
    exact hnodup
  | deliver d =>
    obtain rfl := Option.some.inj hs
    have hnew : ∀ {a : Arrival} {r : AccessRequest},
        outcome signing presses frontendUrl s d = .reviewed a r →
        ((s.calls ++ [(⟨d.press, a.key, s.world.now, d.redisUp, a.params⟩ : Call)]).map
          Call.press).Nodup := by
      intro a r hr
      obtain ⟨harrive, hfree, -⟩ := outcome_eq_reviewed.mp hr
      rw [List.map_append, List.map_singleton]
      refine hnodup.append (List.nodup_singleton _) (List.disjoint_singleton.mpr fun hmem ↦ ?_)
      obtain ⟨c, hc, hpress⟩ := List.mem_map.mp hmem
      obtain ⟨hup, b, hb, hkey, hrecorded, hlt⟩ := hspaced.1 c hc hpress
      obtain ⟨-, -, x, hx, hxkey⟩ := h.calls c hc
      rw [hpress] at hx
      have hsame := ((arrive_eq_ok.mp harrive).1.same hx).2.2.2.2
      have hheld := (h.calls b hb).2.1 hrecorded
      rw [hkey, ← hxkey, ← hsame] at hheld
      rw [hheld.claimFree_eq_false hlt hup] at hfree
      cases hfree
    have heffect : Effect signing presses frontendUrl s d
        (interactions signing presses frontendUrl s d).1 := effect_interactions s d
    generalize (interactions signing presses frontendUrl s d).1 = t at heffect
    cases heffect with
    | idle links => exact hnodup
    | stopped harrive => exact hnodup
    | failed hr => exact hnew hr
    | decided hr hreview => exact hnew hr

variable (signing presses frontendUrl cfg) in
/-- Whatever happens, a press is reviewed only if it may be.  In a run in which Redis keeps the
claims on what has been reviewed for as long as Slack sends it, and in which neither a claim nor
the organization is in the way of those who may decide, every press is reviewed once at most, and
those who may decide do. -/
theorem presses_decided (s₀ s : State) (es : List Event) (h₀ : Fresh s₀) :
    (∀ d params, called signing presses frontendUrl s d = some params →
      Lawful signing presses s d params) ∧
    (Run (step signing presses frontendUrl cfg) (Spaced signing presses) s₀ es s →
      Run (step signing presses frontendUrl cfg) (Decided signing presses frontendUrl) s₀ es s ∧
        (s.calls.map Call.press).Nodup) := by
  refine ⟨fun d params h ↦ lawful_of_called h, fun hrun ↦ ⟨?_, ?_⟩⟩
  · refine hrun.mono_of_invariant (I := Sound presses) h₀.sound fun t e u ht hs hspaced ↦
      ⟨ht.step hs, ?_⟩
    cases e with
    | deliver d =>
      obtain rfl := Option.some.inj hs
      exact ⟨fun params h ↦ lawful_of_called h,
        fun a ha ↦ (decides_iff ht ha).mpr (hspaced.2 a ha)⟩
    | serve op => trivial
    | configure destinations identities allowProd host => trivial
  · have hnodup : (s₀.calls.map Call.press).Nodup := by
      rw [h₀.calls]
      exact List.nodup_nil
    have hstart : Sound presses s₀ ∧ (s₀.calls.map Call.press).Nodup := ⟨h₀.sound, hnodup⟩
    refine (hrun.invariant (I := fun t ↦ Sound presses t ∧ (t.calls.map Call.press).Nodup) hstart
      fun t e u ht hs hspaced ↦ ?_).2
    exact ⟨ht.1.step hs, nodup_step ht.1 ht.2 hs hspaced⟩

end

/-! ## A button and two people -/

def plainSigning : Signing where
  hmac _ _ := "digest"
  number _ := some 0

def waiting : State where
  world :=
    { now := 0
      db :=
        { users := [{ id := "approver", orgId := "org" }, { id := "colleague", orgId := "org" }]
          servers := [{ id := "server", orgId := "org", customerId := "customer" }]
          accessPolicies := []
          policyKey := List.nodup_nil }
      accessRequests :=
        [{ id := "request"
           orgId := "org"
           requesterId := "requester"
           reviewerId := some "approver"
           serverId := "server"
           status := .pending
           reason := "debugging"
           requestedPrincipal := "root"
           requestedDuration := 3600
           protocol := .ssh
           createdAt := 0 }]
      drawn := ["request"] }
  destinations :=
    [{ id := "channel"
       orgId := "org"
       config := { workspaceId := some "T1", signingSecret := some "secret" } }]
  identities :=
    [{ id := "i1", orgId := "org", userId := "approver", workspaceId := "T1"
       externalUserId := "U1" },
     { id := "i2", orgId := "org", userId := "colleague", workspaceId := "T1"
       externalUserId := "U2" }]

def buttonPresses (press : Nat) : Option Payload :=
  some
    { team := some "T1"
      user := some (if press = 1 then "U1" else "U2")
      action := some ⟨"approve_request", "approve:request"⟩
      messageTs := some "100.1" }

def signedPress (press : Nat) : Delivery where
  press := press
  signature := some "v0=digest"
  timestamp := some "0"
  rawBody := some "payload"

theorem waiting_fresh : Fresh waiting := by
  refine ⟨⟨?_, ?_, ?_, ?_, ?_⟩, rfl, rfl, rfl⟩
  · exact List.nodup_singleton _
  · decide
  · exact List.nodup_nil
  · exact List.nodup_nil
  · decide

def approversPress : Arrival where
  orgId := "org"
  teamId := "T1"
  slackUserId := "U1"
  user := { id := "approver", orgId := "org" }
  verb := .approve
  requestId := "request"
  key := "T1:100.1:approve_request:request"

theorem pressed_approversPress : Pressed buttonPresses 1 approversPress :=
  ⟨_, _, rfl, rfl, rfl, rfl⟩

/-- Where nobody has pressed before, the approver decides the request. -/
theorem approversPress_decides : ∃ s,
    Run (step plainSigning buttonPresses "" World.plainConfig)
      (Decided plainSigning buttonPresses "") waiting [.deliver (signedPress 1)] s ∧
    s.world.accessRequests.map AccessRequest.status = [.approved] ∧
    (s.calls.map Call.press).Nodup := by
  let s := (interactions plainSigning buttonPresses "" waiting (signedPress 1)).1
  have hspaced : Spaced plainSigning buttonPresses waiting (.deliver (signedPress 1)) s := by
    refine ⟨fun c hc ↦ absurd hc List.not_mem_nil, fun a ha ↦ ⟨?_, ?_⟩⟩
    · obtain ⟨post, hpost, horg, -, -, hverified⟩ := ha.posted
      obtain rfl := List.mem_singleton.mp hpost
      have hteam := (ha.pressed.same pressed_approversPress).1
      refine ⟨_, ?_, horg, hverified⟩
      rw [hteam]
      rfl
    · exact fun _ x hx ↦ absurd hx List.not_mem_nil
  have hrun : Run (step plainSigning buttonPresses "" World.plainConfig)
      (Spaced plainSigning buttonPresses) waiting [.deliver (signedPress 1)] s :=
    Run.single rfl hspaced
  obtain ⟨-, hall⟩ := presses_decided plainSigning buttonPresses "" World.plainConfig waiting s
    [.deliver (signedPress 1)] waiting_fresh
  exact ⟨s, (hall hrun).1, rfl, (hall hrun).2⟩

/-- The colleague presses first and is refused, and the approver is told that the request was
already handled. -/
theorem approversPress_wasted : ∃ s,
    Fresh waiting ∧
    Run (step plainSigning buttonPresses "" World.plainConfig) free waiting
      [.deliver (signedPress 2)] s ∧
    s.world = waiting.world ∧
    Entitled plainSigning buttonPresses s (signedPress 1) approversPress ∧
    (interactions plainSigning buttonPresses "" s (signedPress 1)).2 =
      ephemeral "That was already handled." ∧
    ¬ Decides plainSigning buttonPresses "" s (signedPress 1) approversPress := by
  let s := (interactions plainSigning buttonPresses "" waiting (signedPress 2)).1
  have hentitled : Entitled plainSigning buttonPresses s (signedPress 1) approversPress := by
    refine ⟨pressed_approversPress, ⟨_, List.mem_singleton_self _, rfl, rfl, rfl, rfl⟩, rfl,
      ⟨_, List.mem_singleton_self _, rfl, rfl, ?_⟩, approversPress.params, _, rfl, rfl, rfl, rfl⟩
    exact fun hprod ↦ absurd hprod (by decide)
  refine ⟨s, waiting_fresh, Run.single rfl trivial, rfl, hentitled, rfl, ?_⟩
  rintro ⟨r, hr, -, hstatus, -⟩
  obtain rfl := List.mem_singleton.mp hr
  cases hstatus

end Shellius.Chat
