import Shellius.Access.BreakGlassRace.Calls
import Shellius.Lib.Ticket

/-!
# Challenges under concurrency

A call reads its challenge first and deletes it only after it has checked the
code, so that in between others may read the challenge as well.  A challenge is
a ticket in the sense of `Lib.Ticket`, every command of a call is a step of its
party with the ticket, and so what is promised about tickets holds of challenges
as long as checks of one challenge do not overlap.
-/

namespace Shellius.BreakGlassRace

open Lib

/-! ## Tickets -/

def Point.stage : Point → Stage
  | .readAttempts | .readChallenge => .idle
  | .countAttempt => .wrong
  | .useOtp .. | .burnChallenge (.granted ..) => .right
  | .burnChallenge .exhausted => .last
  | .burnAttempts (.granted ..) | .create .. => .spent
  | .burnAttempts _ => .closing
  | _ => .found

/-- What a slot is doing with a challenge. -/
def stageOf (c : Id) : Option Call → Stage
  | some k => if k.params.challengeId = c then k.point.stage else .idle
  | none => .idle

/-- What the slots are doing with a challenge. -/
def stages (c : Id) (calls : Nat → Option Call) (i : Nat) : Stage := stageOf c (calls i)

def ticket (s : Store) (c : Id) : Ticket where
  issued := decide (c ∈ s.drawn)
  live := (s.challenges.get s.now c).isSome
  recorded := (s.attempts.get s.now c).getD 0
  checked := s.checked c
  redeemed := s.created c

/-- The challenges are those of tickets drawn, and the count of wrong codes
outlives the challenge. -/
structure Timed (w : World) : Prop where
  challenge : ∀ c e, w.challenges c = some e → c ∈ w.drawn ∧
    ∃ t, e.expiresAt = some t ∧ t ≤ w.now + breakGlassChallengeTtlMs ∧
      ∀ a t', w.attempts c = some a → a.expiresAt = some t' → t ≤ t'
  attempts : ∀ c a, w.attempts c = some a → c ∈ w.drawn

section

variable {cfg : Config} {home : Id → Id} {i : Nat} {c id : Id} {params : VerifyBreakGlassParams}
  {s s' : Store} {point : Point} {w w' : World} {op : World.Op} {k : Call} {l : Option Call}
  {p q : Pool Store Call} {calls : Nat → Option Call}

theorem stages_update : stages c (Function.update calls i l) =
    Function.update (stages c calls) i (stageOf c l) := by
  funext j
  by_cases hj : j = i
  · subst hj; simp [stages]
  · simp [stages, hj]

/-! ### The other operations -/

theorem step_challenges (h : World.step cfg w op = some w')
    (hop : ∀ id params, op ≠ .verifyBreakGlass id params) :
    w.now ≤ w'.now ∧ (∀ id ∈ w.drawn, id ∈ w'.drawn) ∧ w'.attempts = w.attempts ∧
      (w'.challenges = w.challenges ∨ ∃ c payload, c ∉ w.drawn ∧ c ∈ w'.drawn ∧ w'.now = w.now ∧
        w'.challenges =
          w.challenges.set c payload (some (w.now + breakGlassChallengeTtlMs))) := by
  have hdrawn := World.drawn_step h
  cases op with
  | startBreakGlass c mail params =>
    obtain ⟨hc, h⟩ := Option.ite_none_left_eq_some.mp h
    obtain rfl := Option.some.inj h
    unfold World.startBreakGlass at hdrawn ⊢
    split
    · exact ⟨le_rfl, fun _ h ↦ h, rfl, .inl rfl⟩
    · split
      · exact ⟨le_rfl, fun _ h ↦ h, rfl, .inl rfl⟩
      · exact ⟨le_rfl, fun _ h ↦ List.mem_cons_of_mem _ h, rfl,
          .inr ⟨c, _, hc, List.mem_cons_self, rfl, rfl⟩⟩
  | verifyBreakGlass id params => exact (hop id params rfl).elim
  | tick now =>
    obtain ⟨hle, h⟩ := Option.ite_none_right_eq_some.mp h
    obtain rfl := Option.some.inj h
    exact ⟨hle, hdrawn, rfl, .inl rfl⟩
  | _ => cases World.step_effect h <;> exact ⟨le_rfl, hdrawn, rfl, .inl rfl⟩

theorem Timed.attempts_live (h : Timed w) {now : Millis} (hle : w.now ≤ now)
    (hl : (w.challenges.get now c).isSome) : w.attempts.get now c = w.attempts.get w.now c := by
  obtain ⟨v, hv⟩ := Option.isSome_iff_exists.mp hl
  obtain ⟨e, he, hlive, -⟩ := Expiring.get_eq_some.mp hv
  obtain ⟨-, t, ht, -, hout⟩ := h.challenge c e he
  have hlt : now < t := by simpa [Entry.live, ht] using hlive
  cases ha : w.attempts c with
  | none => simp [Expiring.get, ha]
  | some a =>
    have hlive' : a.live now := by
      cases ht' : a.expiresAt with
      | none => simp [Entry.live, ht']
      | some t' => simpa [Entry.live, ht'] using lt_of_lt_of_le hlt (hout a t' ha ht')
    simp [Expiring.get, ha, hlive', Entry.live_anti hle hlive']

theorem Timed.step (h : Timed w) (hs : World.step cfg w op = some w')
    (hop : ∀ id params, op ≠ .verifyBreakGlass id params) : Timed w' := by
  obtain ⟨hnow, hdrawn, hatt, hch⟩ := step_challenges hs hop
  have hold : ∀ c e, w.challenges c = some e → c ∈ w'.drawn ∧
      ∃ t, e.expiresAt = some t ∧ t ≤ w'.now + breakGlassChallengeTtlMs ∧
        ∀ a t', w'.attempts c = some a → a.expiresAt = some t' → t ≤ t' := by
    intro c e he
    obtain ⟨hc, t, ht, hle, hout⟩ := h.challenge c e he
    exact ⟨hdrawn c hc, t, ht, hle.trans (Int.add_le_add_right hnow _), hatt ▸ hout⟩
  refine ⟨fun c e he ↦ ?_, fun c a ha ↦ hdrawn c (h.attempts c a (hatt ▸ ha))⟩
  rcases hch with hch | ⟨c₀, payload, hfresh, hnew, hnow', hch⟩
  · exact hold c e (hch ▸ he)
  · rw [hch] at he
    by_cases hc : c = c₀
    · subst hc
      obtain rfl : Entry.mk payload (some (w.now + breakGlassChallengeTtlMs)) = e := by
        simpa using he
      refine ⟨hnew, _, rfl, hnow' ▸ le_rfl, fun a t' ha ↦ ?_⟩
      exact (hfresh (h.attempts c a (hatt ▸ ha))).elim
    · exact hold c e (by rwa [Expiring.set_of_ne hc] at he)

theorem sound_step (h : Timed s.toWorld) (hs : World.step cfg s.toWorld op = some w')
    (hop : ∀ id params, op ≠ .verifyBreakGlass id params) {st : Nat → Stage}
    (hc : (ticket s c).Sound breakGlassMaxAttempts st) :
    (ticket { s with toWorld := w' } c).Sound breakGlassMaxAttempts st := by
  obtain ⟨hnow, hdrawn, hatt, hch⟩ := step_challenges hs hop
  have hnone (hn : c ∉ s.drawn) : s.attempts c = none := by
    by_contra hne
    obtain ⟨a, ha⟩ := Option.ne_none_iff_exists'.mp hne
    exact hn (h.attempts c a ha)
  refine hc.lapse ?_ rfl rfl ?_ ?_ (by decide)
  · simpa [ticket] using hdrawn c
  · intro hn
    have hn' : c ∉ s.drawn := fun hc ↦ by simp [ticket, hdrawn c hc] at hn
    simp [ticket, hatt, Expiring.get, hnone hn']
  · intro hl
    have hkept (hg : (s.challenges.get w'.now c).isSome) :
        (ticket s c).live ∧ (ticket { s with toWorld := w' } c).recorded = (ticket s c).recorded := by
      obtain ⟨v, hv⟩ := Option.isSome_iff_exists.mp hg
      refine ⟨Option.isSome_iff_exists.mpr ⟨v, Expiring.get_anti hnow hv⟩, ?_⟩
      simp only [ticket, hatt, h.attempts_live hnow hg]
    rcases hch with hch | ⟨c₀, payload, hfresh, hnew, hnow', hch⟩
    · exact .inl (hkept (by simpa [ticket, hch] using hl))
    · by_cases hc : c = c₀
      · subst hc
        refine .inr ⟨by simpa [ticket] using hfresh, by simpa [ticket] using hnew, ?_⟩
        simp [ticket, hatt, Expiring.get, hnone hfresh]
      · refine .inl (hkept ?_)
        simpa [ticket, hch, Expiring.get, Expiring.set_of_ne hc] using hl

/-! ### The commands of a call -/

theorem Timed.effect (h : Timed s.toWorld)
    (hc : point = .countAttempt → params.challengeId ∈ s.drawn) :
    Timed (effect s params id point).toWorld := by
  cases point with
  | countAttempt =>
    refine ⟨fun c e he ↦ ?_, fun c a ha ↦ ?_⟩
    · obtain ⟨hd, t, ht, hle, hout⟩ := h.challenge c e he
      refine ⟨hd, t, ht, hle, fun a t' ha ht' ↦ ?_⟩
      by_cases hne : c = params.challengeId
      · subst hne
        rcases Expiring.expiresAt_incr ha with hn | ⟨a₀, ha₀, he₀⟩
        · simp [hn] at ht'
        · exact hout a₀ t' ha₀ (he₀.trans ht')
      · exact hout a t' ((Expiring.incr_of_ne hne).symm.trans ha) ht'
    · by_cases hne : c = params.challengeId
      · exact hne ▸ hc rfl
      · exact h.attempts c a ((Expiring.incr_of_ne hne).symm.trans ha)
  | expireAttempts =>
    refine ⟨fun c e he ↦ ?_, fun c a ha ↦ ?_⟩
    · obtain ⟨hd, t, ht, hle, hout⟩ := h.challenge c e he
      refine ⟨hd, t, ht, hle, fun a t' ha ht' ↦ ?_⟩
      rcases Expiring.expire_eq_some ha with ha | ⟨-, -, he'⟩
      · exact hout a t' ha ht'
      · exact Option.some.inj (he'.symm.trans ht') ▸ hle
    · rcases Expiring.expire_eq_some ha with ha | ⟨rfl, hne, -⟩
      · exact h.attempts c a ha
      · obtain ⟨a₀, ha₀⟩ := Option.ne_none_iff_exists'.mp hne
        exact h.attempts _ a₀ ha₀
  | burnChallenge reason =>
    refine ⟨fun c e he ↦ ?_, h.attempts⟩
    by_cases hne : c = params.challengeId
    · subst hne; simp [BreakGlassRace.effect] at he
    · exact h.challenge c e ((Expiring.del_of_ne hne).symm.trans he)
  | burnAttempts reason =>
    have hsub (c : Id) (a : Entry Nat Millis)
        (ha : s.attempts.del params.challengeId c = some a) : s.attempts c = some a := by
      by_cases hne : c = params.challengeId
      · subst hne; simp at ha
      · exact (Expiring.del_of_ne hne).symm.trans ha
    refine ⟨fun c e he ↦ ?_, fun c a ha ↦ h.attempts c a (hsub c a ha)⟩
    obtain ⟨hd, t, ht, hle, hout⟩ := h.challenge c e he
    exact ⟨hd, t, ht, hle, fun a t' ha ↦ hout a t' (hsub c a ha)⟩
  | create payload server policy =>
    rw [BreakGlassRace.effect]
    split
    · refine ⟨fun c e he ↦ ?_, fun c a ha ↦ List.mem_cons_of_mem _ (h.attempts c a ha)⟩
      obtain ⟨hd, hrest⟩ := h.challenge c e he
      exact ⟨List.mem_cons_of_mem _ hd, hrest⟩
    · exact h
  | useOtp => exact ⟨h.challenge, h.attempts⟩
  | _ => exact h

theorem lt_add_challengeTtl (now : Millis) : now < now + breakGlassChallengeTtlMs :=
  Int.lt_add_of_pos_right _ (by decide)

theorem sound_effect_of_ne (hne : c ≠ params.challengeId) {st : Nat → Stage}
    (h : (ticket s c).Sound breakGlassMaxAttempts st) :
    (ticket (effect s params id point) c).Sound breakGlassMaxAttempts st := by
  cases point with
  | checkFactor =>
    convert h using 1
    simp only [ticket, effect, Function.update_of_ne hne]
    rfl
  | countAttempt =>
    convert h using 1
    simp only [ticket, effect, Expiring.get, Expiring.incr_of_ne hne]
    rfl
  | expireAttempts =>
    convert h using 1
    simp only [ticket, effect, Expiring.get_expire (lt_add_challengeTtl s.now)]
    rfl
  | burnChallenge | burnAttempts =>
    convert h using 1
    simp only [ticket, effect, Expiring.get_del_of_ne hne]
    rfl
  | create payload server policy =>
    rw [effect]
    split
    · refine h.lapse ?_ rfl (by simp [ticket, hne]) (fun hn ↦ ?_) (fun hl ↦ .inl ⟨hl, rfl⟩)
        (by decide)
      · simp only [ticket, decide_eq_true_eq]
        exact List.mem_cons_of_mem _
      · refine (h.unissued ?_).2.1
        simp only [ticket, decide_eq_false_iff_not] at hn ⊢
        exact fun hm ↦ hn (List.mem_cons_of_mem _ hm)
    · exact h
  | _ => exact h

theorem stageOf_map {o : Option Point} :
    stageOf params.challengeId (o.map fun point ↦ ⟨params, point⟩) = o.elim .idle Point.stage := by
  cases o <;> simp [stageOf]

def Live (s : Store) (c : Id) : Prop := (s.challenges.get s.now c).isSome

/-- A command comes in time.  A code is checked while the challenge is there and no
other check of it is open; an e-mailed code that has been found is still there
when it is marked, or the challenge is not; and a session is created while there
is still none on the server. -/
def Timely (s : Store) (params : VerifyBreakGlassParams) (st : Nat → Stage) : Point → Prop
  | .checkFactor .. => Live s params.challengeId ∧ ∀ j, ¬ (st j).isOpen
  | .useOtp _ _ _ tokenId =>
    Live s params.challengeId → tokenId ∈ s.userTokens.map UserToken.id
  | .create payload _ _ =>
    assertNoActiveBreakGlass s.accessRequests params.orgId payload.serverId s.now = .ok ()
  | _ => True

/-- A command is a step of its party with the ticket. -/
theorem sound_effect {st : Nat → Stage} (crypto : Crypto)
    (h : (ticket s params.challengeId).Sound breakGlassMaxAttempts st) (hi : st i = point.stage)
    (hok : Timely s params st point) :
    (ticket (effect s params id point) params.challengeId).Sound breakGlassMaxAttempts
      (Function.update st i ((next crypto s params point).elim .idle Point.stage)) := by
  have leave {b : Stage} (hclosed : (st i).isOpen = false) (hb : b = .idle ∨ b = .found ∧
      (ticket s params.challengeId).issued = true) :
      (ticket s params.challengeId).Sound breakGlassMaxAttempts (Function.update st i b) :=
    h.move hb (by simp [hclosed])
  have read {b : Stage} (hf : st i = .found) (hb : b = .idle ∨ b = .found) :
      (ticket s params.challengeId).Sound breakGlassMaxAttempts (Function.update st i b) :=
    leave (by rw [hf]; rfl) (hb.imp_right fun hb ↦ ⟨hb, h.issued (i := i) (by simp [hf])⟩)
  cases point with
  | readAttempts =>
    have hclosed : (st i).isOpen = false := by
      rw [hi]
      rfl
    simp only [next]
    split
    · exact leave hclosed (.inl rfl)
    · split
      · rename_i hmany
        refine leave hclosed (.inr ⟨rfl, ?_⟩)
        by_contra hn
        have hzero : (s.attempts.get s.now params.challengeId).getD 0 = 0 :=
          (h.unissued (by simpa using hn)).2.1
        simp [hzero, breakGlassMaxAttempts] at hmany
      · exact leave hclosed (.inl rfl)
  | readChallenge =>
    have hclosed : (st i).isOpen = false := by
      rw [hi]
      rfl
    simp only [next]
    split
    · exact leave hclosed (.inl rfl)
    · rename_i hc
      split
      · exact leave hclosed (.inl rfl)
      · exact leave hclosed (.inr ⟨rfl, h.issued_of_live (by simp [ticket, hc])⟩)
  | findInvoker | findServer | checkProd | findPolicy | checkActive =>
    simp only [next]
    split <;> exact read hi (.inr rfl)
  | checkFactor payload invoker server policy =>
    have ht : ticket (effect s params id (.checkFactor payload invoker server policy))
        params.challengeId = { ticket s params.challengeId with
          checked := (ticket s params.challengeId).checked + 1 } := by
      simp only [ticket, effect, Function.update_self]
      rfl
    have check {b : Stage} (hb : b = .wrong ∨ b = .right) := h.check (i := i) hok.1 hok.2 hb
    rw [ht]
    simp only [next]
    split
    · split
      · exact check (.inr rfl)
      · exact check (.inl rfl)
    · split
      · exact check (.inl rfl)
      · split
        · exact check (.inl rfl)
        · exact check (.inr rfl)
  | useOtp payload server policy tokenId =>
    simp only [next]
    split
    · have hst : Function.update st i .right = st := by
        rw [Function.update_eq_self_iff, hi]
        rfl
      exact hst.symm ▸ h
    · rename_i hgone
      refine h.move (.inl rfl) fun _ ↦ ?_
      by_contra hl
      have hlive : (ticket s params.challengeId).live = true := by simpa using hl
      exact hgone (hok hlive)
  | countAttempt =>
    have ht : ticket (effect s params id .countAttempt) params.challengeId =
        { ticket s params.challengeId with
          recorded := (s.attempts.incr s.now params.challengeId).1 } := by
      simp only [ticket, effect, Expiring.get_incr_self]
      rfl
    rw [ht]
    refine h.record hi (fun _ ↦ Expiring.incr_eq) ?_
    simp only [next]
    split
    · rename_i hone
      exact .inr ⟨.inr rfl, by rw [hone]; decide⟩
    · split
      · exact .inl rfl
      · rename_i hfew
        exact .inr ⟨.inl rfl, not_le.mp hfew⟩
  | expireAttempts =>
    have ht : ticket (effect s params id .expireAttempts) params.challengeId =
        ticket s params.challengeId := by
      simp only [ticket, effect, Expiring.get_expire (lt_add_challengeTtl s.now)]
      rfl
    rw [ht]
    exact read hi (.inl rfl)
  | burnChallenge reason =>
    have ht : ticket (effect s params id (.burnChallenge reason)) params.challengeId =
        { ticket s params.challengeId with live := false } := by
      simp only [ticket, effect, Expiring.get_del_self]
      rfl
    rw [ht]
    refine h.burn ?_
    rw [hi]
    cases reason with
    | refused => exact .inl ⟨.inl rfl, rfl⟩
    | exhausted => exact .inl ⟨.inr rfl, rfl⟩
    | granted => exact .inr ⟨rfl, rfl⟩
  | burnAttempts reason =>
    have ht : ticket (effect s params id (.burnAttempts reason)) params.challengeId =
        { ticket s params.challengeId with recorded := 0 } := by
      simp only [ticket, effect, Expiring.get_del_self]
      rfl
    rw [ht]
    refine h.clear ?_
    rw [hi]
    cases reason with
    | refused | exhausted => exact .inl ⟨rfl, rfl⟩
    | granted => exact .inr ⟨rfl, rfl⟩
  | create payload server policy =>
    have hdrawn : params.challengeId ∈ s.drawn := by
      simpa [ticket] using h.issued (i := i) (by simp [hi, Point.stage])
    rw [effect]
    split
    · have ht : ticket { s with
            accessRequests := s.accessRequests ++
              [breakGlassRow id s.now params payload server policy]
            drawn := id :: s.drawn
            created := Function.update s.created params.challengeId
              (s.created params.challengeId + 1) } params.challengeId =
          { ticket s params.challengeId with
            redeemed := (ticket s params.challengeId).redeemed + 1 } := by
        simp [ticket, hdrawn]
      exact ht ▸ h.redeem hi
    · exact h.move (.inl rfl) fun _ ↦ h.burnt i (.inl hi)

/-! ### Runs -/

/-- The runs in which every command comes in time, and no call dies with the check
of a challenge open that is still there. -/
def Orderly (p : Pool Store Call) (e : Event VerifyBreakGlassParams Id World.Op)
    (_ : Pool Store Call) : Prop :=
  match e with
  | .act i _ => ∀ k, p.calls i = some k →
      Timely p.store k.params (stages k.params.challengeId p.calls) k.point
  | .abort i => ∀ k, p.calls i = some k → k.point.stage.isOpen → ¬ Live p.store k.params.challengeId
  | _ => True

structure Ticketed (p : Pool Store Call) : Prop where
  timed : Timed p.store.toWorld
  sound : ∀ c, (ticket p.store c).Sound breakGlassMaxAttempts (stages c p.calls)

theorem program_env {op : World.Op} (h : (program cfg home).env s op = some s') :
    (∀ id params, op ≠ .verifyBreakGlass id params) ∧
      (∀ server ∈ s'.db.servers, server.orgId = home server.id) ∧
      ∃ w, World.step cfg s.toWorld op = some w ∧ s' = { s with toWorld := w } := by
  have hop : ∀ id params, op ≠ .verifyBreakGlass id params := by
    rintro id params rfl
    simp [program] at h
  have h : ((World.step cfg s.toWorld op).bind fun w ↦
      if ∀ server ∈ w.db.servers, server.orgId = home server.id then
        some { s with toWorld := w }
      else none) = some s' := by
    cases op with
    | verifyBreakGlass id params => exact (hop id params rfl).elim
    | _ => exact h
  obtain ⟨w, hw, h⟩ := Option.bind_eq_some_iff.mp h
  obtain ⟨hhome, h⟩ := Option.ite_none_right_eq_some.mp h
  obtain rfl := Option.some.inj h
  exact ⟨hop, hhome, w, hw, rfl⟩

theorem program_act {i : Nat} {k' : Option Call}
    (h : (program cfg home).act i s k id = some (s', k')) :
    id ∉ s.drawn ∧ s' = effect s k.params id k.point ∧
      k' = (next cfg.toCrypto s k.params k.point).map fun point ↦ ⟨k.params, point⟩ := by
  obtain ⟨hid, h⟩ := Option.ite_none_left_eq_some.mp h
  obtain ⟨rfl, rfl⟩ := Prod.mk.inj (Option.some.inj h)
  exact ⟨hid, rfl, rfl⟩

theorem Ticketed.step {e : Event VerifyBreakGlassParams Id World.Op} (h : Ticketed p)
    (hs : (program cfg home).step p e = some q) (hok : Orderly p e q) : Ticketed q := by
  cases e with
  | spawn i params =>
    obtain ⟨hfree, rfl⟩ := Program.step_spawn hs
    refine ⟨h.timed, fun c ↦ ?_⟩
    have hst : stageOf c (some ((program cfg home).start params)) = .idle := ite_self _
    rw [stages_update, hst]
    exact (h.sound c).move (.inl rfl) (by simp [stages, hfree, stageOf, Stage.isOpen])
  | act i id =>
    obtain ⟨k, ⟨s', k'⟩, hk, hact, rfl⟩ := Program.step_act hs
    obtain ⟨-, rfl, rfl⟩ := program_act hact
    have hi : stages k.params.challengeId p.calls i = k.point.stage := by
      simp [stages, hk, stageOf]
    refine ⟨h.timed.effect fun hp ↦ ?_, fun c ↦ ?_⟩
    · have := (h.sound k.params.challengeId).issued (i := i) (by simp [hi, hp, Point.stage])
      simpa [ticket] using this
    · rw [stages_update]
      by_cases hc : c = k.params.challengeId
      · subst hc
        rw [stageOf_map]
        exact sound_effect cfg.toCrypto (h.sound _) hi (hok k hk)
      · have hst : Function.update (stages c p.calls) i (stageOf c
            ((next cfg.toCrypto p.store k.params k.point).map fun point ↦ ⟨k.params, point⟩)) =
              stages c p.calls := by
          rw [Function.update_eq_self_iff]
          cases next cfg.toCrypto p.store k.params k.point <;>
            simp [stages, hk, stageOf, Ne.symm hc]
        exact hst.symm ▸ sound_effect_of_ne hc (h.sound c)
  | abort i =>
    obtain ⟨k, hk, rfl⟩ := Program.step_abort hs
    refine ⟨h.timed, fun c ↦ ?_⟩
    rw [stages_update]
    refine (h.sound c).move (.inl rfl) fun ho ↦ ?_
    by_cases hc : k.params.challengeId = c
    · subst hc
      have hdead := hok k hk (by simpa [stages, hk, stageOf] using ho)
      simpa [ticket, Live] using hdead
    · simp [stages, hk, stageOf, hc, Stage.isOpen] at ho
  | env op =>
    obtain ⟨s', henv, rfl⟩ := Program.step_env hs
    obtain ⟨hop, -, w, hw, rfl⟩ := program_env henv
    exact ⟨h.timed.step hw hop, fun c ↦ sound_step h.timed hw hop (h.sound c)⟩

end

end Shellius.BreakGlassRace
