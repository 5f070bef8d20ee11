import Shellius.Terminal.Attended

/-!
# What a suspended user keeps

`revokeAllAccessFor` revokes the access requests of a user and ends the sessions that the hub has
of them; a connection that is under way is not found.  If it comes with an access request, the
session it registers ends with the next tick of `checkExpiries`, which looks the request up and
finds it revoked.  A Quick Connect session has no access request, and no tick ends it.

The argument follows the requests.  A session with an access request has one of its user's, since
the connection has looked it up; and once those have been revoked they stay so, for who is
suspended cannot ask for another one.
-/

namespace Shellius.Terminal

open Lib

/-! ## The sweeps of the hub -/

namespace Hub

variable {s : Hub} {id j : Id} {rec rec' : Rec}

/-- An access request that ends the sessions it was opened for. -/
def Over (status : AccessRequestStatus) : Prop :=
  status = .revoked ∨ status = .denied ∨ status = .expired

theorem not_live_endSession (s : Hub) (j : Id) (reason : String) (extra : List (String × String))
    (rec : Rec) : ¬ (s.endSession j reason extra).Live j rec := by
  obtain ⟨hdead, he⟩ | ⟨rec', hlive', he⟩ := endSession_cases s j reason extra
  · rw [he]
    exact hdead rec
  · rw [he]
    intro hlive
    exact of_decide_eq_true (List.mem_filter.mp hlive.listed).2 rfl

theorem not_live_foldl {Q : Badge → Prop} {f : Hub → Id → Hub} (hf : ∀ s j, Dwindles s (f s j))
    (hends : ∀ s j rec, Q rec.badge → ¬ (f s j).Live j rec) {ids : List Id} (hid : id ∈ ids)
    (hlive : (ids.foldl f s).Live id rec) : ¬ Q rec.badge := by
  induction ids generalizing s with
  | nil => cases hid
  | cons j ids ih =>
    have hrest : Dwindles (f s j) (ids.foldl f (f s j)) := chained_dwindles.foldl hf _ ids
    obtain rfl | hid := List.mem_cons.mp hid
    · obtain ⟨rec', hlive', hbadge⟩ := hrest.live hlive
      exact fun hQ ↦ hends s id rec' (hbadge ▸ hQ) hlive'
    · exact ih hid hlive

/-- `endAllForUser` ends the sessions of the user. -/
theorem owner_ne_of_endAllForUser {u : Owner} {reason : String}
    (hlive : (s.endAllForUser u.userId (some u.orgId) reason).Live id rec) : rec.badge.owner ≠ u := by
  obtain ⟨rec', hlive', hbadge⟩ := (chained_dwindles.endAllForUser s _ _ _).live hlive
  intro howner
  have howner' : rec'.badge.owner = u := hbadge ▸ howner
  refine not_live_foldl (Q := fun b ↦ b.owner = u) (fun s j ↦ dwindles_endSession s j reason [])
    (fun s j rec _ ↦ not_live_endSession s j reason [] rec) ?_ hlive howner
  refine List.mem_filter.mpr ⟨hlive'.listed, ?_⟩
  subst howner'
  simp [hlive'.made, hlive'.open_, Rec.badge]

/-- The sessions with an access request that the first loop of `checkExpiries` leaves are those
that it looks up. -/
theorem mem_sweep {now : Millis} {ids withAr : List Id} (hid : id ∈ ids ∨ id ∈ withAr)
    (hlive : (sweep now ids (s, withAr)).1.Live id rec) (hsome : rec.accessRequestId.isSome = true) :
    id ∈ (sweep now ids (s, withAr)).2 := by
  induction ids generalizing s withAr with
  | nil => exact hid.resolve_left List.not_mem_nil
  | cons j ids ih =>
    obtain ⟨rec', hlive', hbadge⟩ := (chained_dwindles.sweep s now (j :: ids) withAr).live hlive
    have hother : id ≠ j ∨ id ∈ withAr → id ∈ ids ∨ id ∈ withAr := by
      rintro (hne | hin)
      · exact hid.imp_left fun hmem ↦ (List.mem_cons.mp hmem).resolve_left hne
      · exact .inr hin
    unfold sweep at hlive ⊢
    split at hlive
    · rename_i hnone
      have hne : id ≠ j := by
        rintro rfl
        cases hnone.symm.trans hlive'.made
      exact ih (hother (.inl hne)) hlive
    · rename_i recj hrecj
      split at hlive
      · rename_i hended
        rw [if_pos hended]
        have hne : id ≠ j := by
          rintro rfl
          obtain rfl := Option.some.inj (hrecj.symm.trans hlive'.made)
          exact Bool.false_ne_true (hlive'.open_.symm.trans hended)
        exact ih (hother (.inl hne)) hlive
      · rename_i hopen
        rw [if_neg hopen]
        split at hlive
        · rename_i hexpired
          rw [if_pos hexpired]
          have hne : id ≠ j := by
            rintro rfl
            obtain ⟨rec'', hlive'', -⟩ :=
              (chained_dwindles.sweep (s.endSession id "expired") now ids withAr).live hlive
            exact not_live_endSession s id "expired" [] rec'' hlive''
          exact ih (hother (.inl hne)) hlive
        · rename_i hnot
          rw [if_neg hnot]
          split at hlive
          · rename_i har
            rw [if_pos har]
            refine ih ?_ hlive
            by_cases hne : id = j
            · exact .inr (List.mem_append_right _ (List.mem_singleton.mpr hne))
            · exact (hother (.inl hne)).imp_right (List.mem_append_left _)
          · rename_i har
            rw [if_neg har]
            have hne : id ≠ j := by
              rintro rfl
              obtain rfl := Option.some.inj (hrecj.symm.trans hlive'.made)
              have hsame : rec.accessRequestId = recj.accessRequestId :=
                congrArg Badge.accessRequestId hbadge
              exact har (hsame ▸ hsome)
            exact ih (hother (.inl hne)) hlive

/-- The rows found say that the access request is over. -/
def Overruled (ars : List Ar) (b : Badge) : Prop :=
  ∃ ar, (b.accessRequestId.bind fun arId ↦ ars.find? fun ar ↦ ar.id = arId) = some ar ∧ Over ar.status

/-- The second loop of `checkExpiries` ends a session whose access request is over. -/
theorem not_live_judge (now : Millis) (ars : List Ar) (s : Hub) (j : Id) (rec : Rec)
    (hover : Overruled ars rec.badge) : ¬ (judge now ars s j).Live j rec := by
  intro hlive
  obtain ⟨rec', hlive', hbadge⟩ := (chained_dwindles.judge now ars s j).live hlive
  obtain ⟨ar, har, hstatus⟩ := hbadge ▸ hover
  unfold Over at hstatus
  have har : (rec'.accessRequestId.bind fun arId ↦ ars.find? fun ar ↦ ar.id = arId) = some ar := har
  have hopen : ¬ rec'.ended = true := by simp [hlive'.open_]
  rw [judge, hlive'.made] at hlive
  dsimp only at hlive
  rw [if_neg hopen, har] at hlive
  dsimp only at hlive
  rw [if_pos hstatus] at hlive
  exact not_live_endSession s j "expired" [] rec hlive

end Hub

/-! ## The access requests -/

section

variable {ttl : Nat} {p q : Process} {u : Owner} {k : Point} {k' : Option Point} {a : Answer}

/-- The access requests of the user are over. -/
def Process.Spent (u : Owner) (p : Process) : Prop :=
  ∀ id row, p.requests id = some row → row.requesterId = u.userId → row.orgId = u.orgId →
    Hub.Over row.status

theorem mayBecome_over {status next : AccessRequestStatus} (h : mayBecome status next = true)
    (hover : Hub.Over status) : Hub.Over next := by
  obtain rfl | rfl | rfl := hover
  · exact .inl (of_decide_eq_true h).symm
  · exact .inr (.inl (of_decide_eq_true h).symm)
  · exact .inr (.inr (of_decide_eq_true h).symm)

theorem Process.Spent.ages (h : p.Spent u) (hages : Ages p q) (hbars : p.bars u = true) :
    q.Spent u := by
  intro id row hrow hrequester horg
  cases hold : p.requests id with
  | none =>
    have hactive := hages.new hrow hold
    rw [hrequester, horg] at hactive
    cases hactive.symm.trans hbars
  | some row₀ =>
    obtain ⟨row', hrow', hrequester', horg', hmay⟩ := hages.row hold
    obtain rfl := Option.some.inj (hrow.symm.trans hrow')
    exact mayBecome_over hmay
      (h id row₀ hold (hrequester'.symm.trans hrequester) (horg'.symm.trans horg))

theorem spent_revokeRequests (p : Process) (u : Owner) :
    (p.revokeRequests u.orgId u.userId).Spent u := by
  intro id row hrow hrequester horg
  obtain ⟨row₀, -, rfl⟩ := Option.map_eq_some_iff.mp hrow
  split
  · exact .inl rfl
  · rename_i hkept
    rw [if_neg hkept] at hrequester horg
    have hstatus : ¬ (row₀.status = .pending ∨ row₀.status = .approved) := fun h ↦
      hkept ⟨hrequester, horg, h⟩
    cases hcase : row₀.status with
    | pending => exact absurd (.inl hcase) hstatus
    | approved => exact absurd (.inr hcase) hstatus
    | revoked => exact .inl rfl
    | denied => exact .inr (.inl rfl)
    | expired => exact .inr (.inr rfl)

theorem Process.Backs.ages {requestId : Id} {visitor : Option Owner} (h : p.Backs requestId visitor)
    (hages : Ages p q) : q.Backs requestId visitor := by
  obtain ⟨row, hrow, rfl⟩ := h
  obtain ⟨row', hrow', hrequester, horg, -⟩ := hages.row hrow
  exact ⟨row', hrow', by rw [hrequester, horg]⟩

/-- The query of `checkExpiries` finds the access request of a session. -/
theorem find_arsOf {withAr : List Id} {id requestId : Id} {rec : Rec} {row : AccessRequest}
    (hid : id ∈ withAr) (hrec : p.hub.recs id = some rec) (har : rec.accessRequestId = some requestId)
    (hrow : p.requests requestId = some row) :
    ∃ ar, ((p.arsOf withAr).find? fun ar ↦ ar.id = requestId) = some ar ∧ ar.status = row.status := by
  have hmem : (⟨requestId, row.status, row.expiresAt⟩ : Hub.Ar) ∈ p.arsOf withAr :=
    List.mem_filterMap.mpr ⟨id, hid, by simp [hrec, har, hrow]⟩
  have hall : ∀ ar ∈ p.arsOf withAr, ar.id = requestId → ar.status = row.status := by
    rintro ar hin rfl
    obtain ⟨id', -, hid'⟩ := List.mem_filterMap.mp hin
    obtain ⟨rec', -, hid'⟩ := Option.bind_eq_some_iff.mp hid'
    obtain ⟨requestId', -, hid'⟩ := Option.bind_eq_some_iff.mp hid'
    obtain ⟨row', hrow', hid'⟩ := Option.bind_eq_some_iff.mp hid'
    obtain rfl := Option.some.inj hid'
    rw [Option.some.inj (hrow.symm.trans hrow')]
  have hsome : ((p.arsOf withAr).find? fun ar ↦ ar.id = requestId).isSome = true :=
    List.find?_isSome.mpr ⟨_, hmem, decide_eq_true rfl⟩
  obtain ⟨ar, hfind⟩ := Option.isSome_iff_exists.mp hsome
  have hid : ar.id = requestId := by simpa using List.find?_some hfind
  exact ⟨ar, hfind, hall ar (List.mem_of_find?_eq_some hfind) hid⟩

/-! ## What one step does -/

theorem Move.ages (hm : Move ttl p k q k') : Ages p q := by
  cases hm with
  | accept hq => obtain ⟨rfl, -⟩ | ⟨rfl, -⟩ := hq <;> exact ages_of_eq rfl
  | service _ _ _ hages => exact hages
  | refuse | go | attach | connect | abandon | complain | release | register => exact ages_of_eq rfl

theorem ages_outside {o : Outside} (ho : outside ttl p o = some q) : Ages p q := by
  cases o with
  | hub e =>
    rw [outside] at ho
    split at ho
    · obtain ⟨hub, -, rfl⟩ := Option.map_eq_some_iff.mp ho
      exact ages_of_eq rfl
    · cases ho
  | close | error | clientClose =>
    obtain rfl := Option.some.inj ho
    exact ages_of_eq rfl
  | account =>
    rw [outside] at ho
    split at ho
    · obtain rfl := Option.some.inj ho
      exact ages_of_eq rfl
    · cases ho
  | ask id row =>
    rw [outside] at ho
    split at ho
    · rename_i hask
      obtain ⟨hfresh, hactive⟩ := hask
      obtain rfl := Option.some.inj ho
      constructor
      · intro id' row' hrow'
        have hid : id' ≠ id := by
          rintro rfl
          cases hfresh.symm.trans hrow'
        exact ⟨row', (Function.update_of_ne hid ..).trans hrow', rfl, rfl, mayBecome_refl _⟩
      · intro id' row' hrow' hnone
        have hrow' : Function.update p.requests id (some row) id' = some row' := hrow'
        by_cases hid : id' = id
        · subst hid
          rw [Function.update_self] at hrow'
          obtain rfl := Option.some.inj hrow'
          obtain ⟨user, huser, hok⟩ := (Option.any_eq_true _ _).mp hactive
          simp only [decide_eq_true_eq] at hok
          simp [Process.bars, huser, hok]
        · rw [Function.update_of_ne hid, hnone] at hrow'
          cases hrow'
    · cases ho
  | rule id status expiresAt =>
    rw [outside] at ho
    split at ho
    · cases ho
    · rename_i row hrow
      split at ho
      · rename_i hmay
        obtain rfl := Option.some.inj ho
        constructor
        · intro id' row' hrow'
          by_cases hid : id' = id
          · subst hid
            obtain rfl := Option.some.inj (hrow.symm.trans hrow')
            exact ⟨_, Function.update_self .., rfl, rfl, hmay⟩
          · exact ⟨row', (Function.update_of_ne hid ..).trans hrow', rfl, rfl, mayBecome_refl _⟩
        · intro id' row' hrow' hnone
          have hid : id' ≠ id := by
            rintro rfl
            cases hrow.symm.trans hnone
          cases hnone.symm.trans ((Function.update_of_ne hid ..).symm.trans hrow')
      · cases ho

/-- A session that was live before. -/
def Hub.Carries (s : Hub) (id : Id) (rec : Rec) : Prop :=
  ∃ rec', s.Live id rec' ∧ rec.badge.owner = rec'.badge.owner ∧
    rec.accessRequestId = rec'.accessRequestId

theorem Hub.Dwindles.carries {s t : Hub} (h : s.Dwindles t) {id : Id} {rec : Rec}
    (hlive : t.Live id rec) : s.Carries id rec := by
  obtain ⟨rec', hlive', hbadge⟩ := h.live hlive
  exact ⟨rec', hlive', congrArg Badge.owner hbadge, congrArg Badge.accessRequestId hbadge⟩

theorem Hub.Sheds.carries {s t : Hub} (h : s.Sheds t) {id : Id} {rec : Rec} (hlive : t.Live id rec) :
    s.Carries id rec := by
  obtain ⟨rec', hlive', howner, har, -⟩ := h.live hlive
  exact ⟨rec', hlive', howner, har⟩

theorem Hub.Live.carries {s t : Hub} {id : Id} {rec : Rec} (hlive : t.Live id rec)
    (hrecs : t.recs = s.recs) (hsessions : t.sessions = s.sessions) : s.Carries id rec :=
  ⟨rec, ⟨hrecs ▸ hlive.made, hsessions ▸ hlive.listed, hlive.open_⟩, rfl, rfl⟩

theorem Move.live (hm : Move ttl p k q k') {id : Id} {rec : Rec} (hlive : q.hub.Live id rec) :
    p.hub.Carries id rec ∨ ∃ c client, k = .writer c client id ∧ rec.badge.owner = c.owner ∧
      rec.accessRequestId = c.accessRequestId := by
  cases hm with
  | accept hq => obtain ⟨rfl, -⟩ | ⟨rfl, -⟩ := hq <;> exact .inl (hlive.carries rfl rfl)
  | attach _ hok =>
    obtain ⟨rec', hlive', howner, har, -⟩ := Hub.live_attach hok hlive
    exact .inl ⟨rec', hlive', howner, har⟩
  | @register c client j recording hfresh =>
    obtain hlive | ⟨rfl, rfl⟩ := Process.live_register hlive
    · exact .inl ⟨rec, hlive, rfl, rfl⟩
    · exact .inr ⟨c, client, rfl, rfl, rfl⟩
  | service _ _ hdrifts _ => exact .inl (hdrifts.dwindles.carries hlive)
  | refuse | go | connect | abandon | complain | release => exact .inl (hlive.carries rfl rfl)

theorem carries_foldl_detach (s : Hub) (ids : List Id) (ws : Socket) :
    s.Sheds (ids.foldl (fun s id ↦ s.detach ttl id ws) s) := by
  induction ids generalizing s with
  | nil => exact .refl s
  | cons j ids ih => exact (Hub.sheds_detach s ttl j ws).trans (ih _)

theorem live_outside {o : Outside} (ho : outside ttl p o = some q) {id : Id} {rec : Rec}
    (hlive : q.hub.Live id rec) : p.hub.Carries id rec := by
  cases o with
  | hub e =>
    rw [outside] at ho
    split at ho
    · rename_i he
      obtain ⟨hub, hhub, rfl⟩ := Option.map_eq_some_iff.mp ho
      have hdrifts : Hub.Drifts ttl p.hub hub := Hub.drifts_step he hhub
      exact hdrifts.dwindles.carries hlive
    · cases ho
  | close ws =>
    obtain rfl := Option.some.inj ho
    obtain ⟨rec', hlive', howner, har⟩ := (carries_foldl_detach _ _ ws).carries hlive
    exact ⟨rec', ⟨hlive'.made, hlive'.listed, hlive'.open_⟩, howner, har⟩
  | error ws =>
    obtain rfl := Option.some.inj ho
    exact (carries_foldl_detach _ _ ws).carries hlive
  | clientClose =>
    obtain rfl := Option.some.inj ho
    exact hlive.carries rfl rfl
  | account | ask =>
    rw [outside] at ho
    split at ho
    · obtain rfl := Option.some.inj ho
      exact hlive.carries rfl rfl
    · cases ho
  | rule =>
    rw [outside] at ho
    split at ho
    · cases ho
    · split at ho
      · obtain rfl := Option.some.inj ho
        exact hlive.carries rfl rfl
      · cases ho

/-- Who a connection is for, and which access request is behind it, is found in the tables. -/
structure Traced (p : Process) (k l : Point) : Prop where
  visitor : l.visitor = none ∨ l.visitor = k.visitor ∨
    ∃ t : WsTicket, l.visitor = some t.owner ∧ p.admits t = true
  backing : ∀ requestId ∈ l.backing,
    requestId ∈ k.backing ∧ l.visitor = k.visitor ∨ p.Backs requestId l.visitor

theorem Traced.of_none {l : Point} (hvisitor : l.visitor = none) (hbacking : l.backing = none) :
    Traced p k l := by
  refine ⟨.inl hvisitor, fun requestId hr ↦ ?_⟩
  rw [hbacking] at hr
  cases hr

theorem Traced.of_eq {l : Point} (hvisitor : l.visitor = k.visitor) (hbacking : l.backing = k.backing) :
    Traced p k l :=
  ⟨.inr (.inl hvisitor), fun _ hr ↦ .inl ⟨hbacking ▸ hr, hvisitor⟩⟩

theorem Move.traced {l : Point} (hm : Move ttl p k q (some l)) : Traced p k l := by
  generalize hl : some l = k' at hm
  cases hm with
  | accept hq =>
    obtain ⟨-, rfl⟩ | ⟨-, rfl⟩ := hq
    · cases hl
      exact .of_none rfl rfl
    · cases hl
  | refuse _ hleft _ =>
    obtain ⟨-, -, hvisitor, hbacking⟩ := hleft l hl.symm
    exact .of_none hvisitor hbacking
  | go _ hvetted =>
    cases hl
    exact ⟨.inr hvetted.visitor, hvetted.backing⟩
  | connect hto =>
    cases hl
    obtain rfl | rfl := hto <;> exact .of_eq rfl rfl
  | complain =>
    cases hl
    exact .of_eq rfl rfl
  | service _ hbare _ _ =>
    have hl' := hbare l hl.symm
    exact .of_none hl'.visitor hl'.backing
  | attach | abandon | release | register => cases hl

end

/-! ## Runs -/

section

variable {ttl : Nat} {r v : Pool Process Point} {e : Lib.Event Call Answer Outside} {u : Owner}
  {p q : Process} {k : Point} {k' : Option Point} {a : Answer} {i : Nat}

structure Advance (r : Pool Process Point) (e : Lib.Event Call Answer Outside)
    (v : Pool Process Point) : Prop where
  ages : Ages r.store v.store
  live : ∀ {id rec}, v.store.hub.Live id rec → r.store.hub.Carries id rec ∨
    ∃ i a c client, e = .act i a ∧ r.calls i = some (.writer c client id) ∧
      rec.badge.owner = c.owner ∧ rec.accessRequestId = c.accessRequestId
  calls : ∀ {i l}, v.calls i = some l → l.visitor = none ∧ l.backing = none ∨
    ∃ k, r.calls i = some k ∧ Traced r.store k l

theorem advance_of_step (hs : (program ttl).step r e = some v) : Advance r e v := by
  cases e with
  | spawn i c =>
    obtain ⟨-, rfl⟩ := Program.step_spawn hs
    refine ⟨ages_of_eq rfl, fun hlive ↦ .inl (hlive.carries rfl rfl), ?_⟩
    intro j l hl
    obtain ⟨-, hl⟩ | ⟨-, hl⟩ := calls_update.mp hl
    · obtain rfl := Option.some.inj hl
      cases c <;> exact .inl ⟨rfl, rfl⟩
    · exact .inr ⟨l, hl, .of_eq rfl rfl⟩
  | act i a =>
    obtain ⟨k, ⟨q, k'⟩, hk, hact, rfl⟩ := Program.step_act hs
    have hm : Move ttl r.store k q k' := move_of_act hact
    refine ⟨hm.ages, ?_, ?_⟩
    · intro id rec hlive
      obtain hcarries | ⟨c, client, rfl, howner, har⟩ := hm.live hlive
      · exact .inl hcarries
      · exact .inr ⟨i, a, c, client, rfl, hk, howner, har⟩
    · intro j l hl
      obtain ⟨rfl, rfl⟩ | ⟨-, hl⟩ := calls_update.mp hl
      · exact .inr ⟨k, hk, hm.traced⟩
      · exact .inr ⟨l, hl, .of_eq rfl rfl⟩
  | abort i =>
    obtain ⟨k, -, rfl⟩ := Program.step_abort hs
    refine ⟨ages_of_eq rfl, fun hlive ↦ .inl (hlive.carries rfl rfl), ?_⟩
    intro j l hl
    obtain ⟨-, hl⟩ | ⟨-, hl⟩ := calls_update.mp hl
    · cases hl
    · exact .inr ⟨l, hl, .of_eq rfl rfl⟩
  | env o =>
    obtain ⟨q, hq, rfl⟩ := Program.step_env hs
    exact ⟨ages_outside hq, fun hlive ↦ .inl (live_outside hq hlive),
      fun hl ↦ .inr ⟨_, hl, .of_eq rfl rfl⟩⟩

/-- The access request of a session, or of a connection under way, is its user's. -/
structure Founded (r : Pool Process Point) : Prop where
  live : ∀ id rec, r.store.hub.Live id rec → ∀ requestId ∈ rec.accessRequestId,
    r.store.Backs requestId (some rec.badge.owner)
  calls : ∀ i k, r.calls i = some k → ∀ requestId ∈ k.backing, r.store.Backs requestId k.visitor

theorem founded_idle {users : Id → Option Account} {requests : Id → Option AccessRequest} :
    Founded (Program.idle Point { users, requests }) where
  live _ _ hlive := by cases hlive.made
  calls _ _ hk := by cases hk

theorem Founded.step (h : Founded r) (hs : (program ttl).step r e = some v) : Founded v := by
  have hadvance := advance_of_step hs
  constructor
  · intro id rec hlive requestId hr
    obtain ⟨rec', hlive', howner, har⟩ | ⟨i, a, c, client, -, hk, howner, har⟩ := hadvance.live hlive
    · rw [howner]
      exact (h.live id rec' hlive' requestId (har ▸ hr)).ages hadvance.ages
    · rw [howner]
      have hr : requestId ∈ c.accessRequestId := har ▸ hr
      exact (h.calls i _ hk requestId hr).ages hadvance.ages
  · intro j l hl requestId hr
    obtain ⟨-, hnone⟩ | ⟨k, hk, htraced⟩ := hadvance.calls hl
    · rw [hnone] at hr
      cases hr
    · obtain ⟨hin, hvisitor⟩ | hbacks := htraced.backing requestId hr
      · rw [hvisitor]
        exact (h.calls j k hk requestId hin).ages hadvance.ages
      · exact hbacks.ages hadvance.ages

/-! ### The revocation -/

/-- How far the revocation of a user has come. -/
def Revoking (u : Owner) (p : Process) : Point → Prop
  | .tokens orgId userId _ | .requests orgId userId _ => ⟨userId, orgId⟩ = u
  | .families orgId userId _ | .validFrom orgId userId _ | .sweep orgId userId _ =>
    ⟨userId, orgId⟩ = u ∧ p.Spent u
  | _ => False

theorem Revoking.ages (h : Revoking u p k) (hages : Ages p q) (hbars : p.bars u = true) :
    Revoking u q k := by
  cases k with
  | tokens | requests => exact h
  | families | validFrom | sweep => exact ⟨h.1, h.2.ages hages hbars⟩
  | _ => cases h

theorem Revoking.act (h : Revoking u p k) (hact : Terminal.act p k a = some (q, k'))
    (hbars : p.bars u = true) : (∀ l ∈ k', Revoking u q l) ∧ (k' = none → a = .done →
      q.Spent u ∧ ∀ id rec, q.hub.Live id rec → rec.badge.owner ≠ u) := by
  have hfailed : (∀ l ∈ (none : Option Point), Revoking u q l) ∧ ((none : Option Point) = none →
      Answer.failed = .done → q.Spent u ∧ ∀ id rec, q.hub.Live id rec → rec.badge.owner ≠ u) :=
    ⟨fun l hl ↦ (by cases hl), fun _ ha ↦ (by cases ha)⟩
  cases k with
  | tokens | families | validFrom =>
    cases a with
    | done =>
      cases hact
      refine ⟨?_, fun hnone ↦ by cases hnone⟩
      rintro _ ⟨⟩
      exact h
    | failed =>
      cases hact
      exact hfailed
    | _ => cases hact
  | requests orgId userId reason =>
    cases a with
    | done =>
      cases hact
      refine ⟨?_, fun hnone ↦ by cases hnone⟩
      rintro _ ⟨⟩
      obtain rfl : (⟨userId, orgId⟩ : Owner) = u := h
      exact ⟨rfl, spent_revokeRequests p ⟨userId, orgId⟩⟩
    | failed =>
      cases hact
      exact hfailed
    | _ => cases hact
  | sweep orgId userId reason =>
    cases a with
    | done =>
      cases hact
      obtain ⟨rfl, hspent⟩ := h
      exact ⟨fun l hl ↦ (by cases hl), fun _ _ ↦
        ⟨hspent, fun id rec hlive ↦ Hub.owner_ne_of_endAllForUser hlive⟩⟩
    | _ => cases hact
  | _ => cases h

/-- The user is not active as the step is taken. -/
def stillBarred (u : Owner) (r : Pool Process Point) (_ : Lib.Event Call Answer Outside) : Bool :=
  r.store.bars u

/-- The step registers a session of the user that has no access request. -/
def registersUnbacked (u : Owner) (r : Pool Process Point) : Lib.Event Call Answer Outside → Bool
  | .act i _ => (r.calls i).any fun
      | .writer c _ _ => c.owner = u ∧ c.accessRequestId = none
      | _ => false
  | _ => false

/-- The user is not active, and gets no session but with an access request. -/
def stillBacked (u : Owner) (r : Pool Process Point) (e : Lib.Event Call Answer Outside) : Bool :=
  r.store.bars u && !registersUnbacked u r e

/-- The access requests of the user are over, and each session of the user has one. -/
structure Barred (u : Owner) (r : Pool Process Point) : Prop where
  founded : Founded r
  spent : r.store.Spent u
  backed : ∀ id rec, r.store.hub.Live id rec → rec.badge.owner = u → rec.accessRequestId.isSome = true

theorem Barred.step (h : Barred u r) (hs : (program ttl).step r e = some v)
    (hok : stillBacked u r e = true) : Barred u v := by
  have hadvance := advance_of_step hs
  obtain ⟨hbars, hunbacked⟩ := Bool.and_eq_true_iff.mp hok
  refine ⟨h.founded.step hs, h.spent.ages hadvance.ages hbars, ?_⟩
  intro id rec hlive howner
  obtain ⟨rec', hlive', howner', har⟩ | ⟨i, a, c, client, rfl, hk, howner', har⟩ :=
    hadvance.live hlive
  · rw [har]
    exact h.backed id rec' hlive' (howner'.symm.trans howner)
  · rw [har]
    cases hnone : c.accessRequestId with
    | some requestId => rfl
    | none =>
      rw [registersUnbacked, hk] at hunbacked
      simp [howner'.symm.trans howner, hnone] at hunbacked

/-- The call in slot `i` revokes the access of the user. -/
structure Revokes (u : Owner) (i : Nat) (r : Pool Process Point) : Prop where
  founded : Founded r
  call : ∀ k, r.calls i = some k → Revoking u r.store k

theorem Revokes.step (h : Revokes u i r) (hs : (program ttl).step r e = some v)
    (hbars : r.store.bars u = true) (hsome : (r.calls i).isSome = true) : Revokes u i v where
  founded := h.founded.step hs
  call l hl := by
    obtain ⟨k, hk⟩ := Option.isSome_iff_exists.mp hsome
    obtain ⟨a, rfl⟩ | ⟨-, hnone⟩ | hsame := Program.calls_of_step hk hs
    · obtain ⟨k₀, ⟨q, k'⟩, hk₀, hact, rfl⟩ := Program.step_act hs
      obtain ⟨hnext, -⟩ := (h.call k₀ hk₀).act hact hbars
      exact hnext l ((calls_update.mp hl).resolve_right fun hne ↦ hne.1 rfl).2
    · cases hnone.symm.trans hl
    · obtain rfl := Option.some.inj (hsame.symm.trans hl)
      exact (h.call k hk).ages (advance_of_step hs).ages hbars

theorem barred_of_revoked {reason : String} (h : Founded r)
    (hrevoke : (program ttl).Served (fun r e _ ↦ stillBarred u r e = true) i
      (.revokeAllAccessFor u.orgId u.userId reason) .done r v) : Barred u v := by
  have hspawn : ∀ t, (program ttl).step r (.spawn i (.revokeAllAccessFor u.orgId u.userId reason)) =
      some t → stillBarred u r (.spawn i (.revokeAllAccessFor u.orgId u.userId reason)) = true →
      Revokes u i t := by
    intro t hs _
    refine ⟨h.step hs, fun k hk ↦ ?_⟩
    obtain ⟨-, rfl⟩ := Program.step_spawn hs
    obtain ⟨-, hk⟩ := (calls_update.mp hk).resolve_right fun hne ↦ hne.1 rfl
    obtain rfl := Option.some.inj hk
    exact rfl
  obtain ⟨t, ht, hlast, hbars, hret⟩ := hrevoke.invariant hspawn
    fun _ _ _ ht hs hbars hsome ↦ ht.step hs hbars hsome
  obtain ⟨k, ⟨q, k'⟩, hk, hact, rfl⟩ := Program.step_act hlast
  have hret : Function.update t.calls i k' i = none := hret
  rw [Function.update_self] at hret
  obtain ⟨-, hdone⟩ := (ht.call k hk).act hact hbars
  obtain ⟨hspent, hnone⟩ := hdone hret rfl
  exact ⟨ht.founded.step hlast, hspent, fun id rec hlive howner ↦ absurd howner (hnone id rec hlive)⟩

/-! ### The tick -/

/-- A check has not begun, or looks all the sessions of the user up. -/
def Looks (u : Owner) (p : Process) (k : Point) : Prop :=
  k = .tick ∨ ∃ now withAr, k = .query now withAr ∧
    ∀ id rec, p.hub.Live id rec → rec.badge.owner = u → id ∈ withAr

theorem bars_eq_false_of_admits {t : WsTicket} (h : p.admits t = true) : p.bars t.owner = false := by
  obtain ⟨user, huser, hok⟩ := (Option.any_eq_true _ _).mp h
  simp only [decide_eq_true_eq] at hok
  simp [Process.bars, WsTicket.owner, huser, hok.1, hok.2.1]

theorem visitor_ne_of_step (h : ∀ j k, r.calls j = some k → k.visitor ≠ some u)
    (hs : (program ttl).step r e = some v) (hbars : r.store.bars u = true) :
    ∀ j k, v.calls j = some k → k.visitor ≠ some u := by
  intro j l hl hvisitor
  obtain ⟨hnone, -⟩ | ⟨k, hk, htraced⟩ := (advance_of_step hs).calls hl
  · cases hnone.symm.trans hvisitor
  · obtain hnone | hsame | ⟨t, howner, hadmits⟩ := htraced.visitor
    · cases hnone.symm.trans hvisitor
    · exact h j k hk (hsame.symm.trans hvisitor)
    · obtain rfl := Option.some.inj (howner.symm.trans hvisitor)
      cases (bars_eq_false_of_admits hadmits).symm.trans hbars

theorem Looks.step (h : Looks u r.store k) (hgone : ∀ j k, r.calls j = some k → k.visitor ≠ some u)
    (hs : (program ttl).step r e = some v) : Looks u v.store k := by
  obtain rfl | ⟨now, withAr, rfl, hall⟩ := h
  · exact .inl rfl
  · refine .inr ⟨now, withAr, rfl, fun id rec hlive howner ↦ ?_⟩
    obtain ⟨rec', hlive', howner', -⟩ | ⟨j, a, c, client, -, hk, howner', -⟩ :=
      (advance_of_step hs).live hlive
    · exact hall id rec' hlive' (howner'.symm.trans howner)
    · exact absurd (congrArg some (howner'.symm.trans howner)) (hgone j _ hk)

/-- The check goes on, or no session of the user is left. -/
theorem Looks.act (h : Looks u p k) (hact : Terminal.act p k a = some (q, k'))
    (hbacks : ∀ id rec, p.hub.Live id rec → ∀ requestId ∈ rec.accessRequestId,
      p.Backs requestId (some rec.badge.owner)) (hspent : p.Spent u)
    (hbacked : ∀ id rec, p.hub.Live id rec → rec.badge.owner = u → rec.accessRequestId.isSome = true) :
    (∀ l ∈ k', Looks u q l) ∧
      (k' = none → a = .done → ∀ id rec, q.hub.Live id rec → rec.badge.owner ≠ u) := by
  obtain rfl | ⟨now, withAr, rfl, hall⟩ := h
  · cases a with
    | done =>
      cases hact
      have hfound : ∀ id rec,
          (Hub.sweep p.hub.now p.hub.sessions (p.hub, [])).1.Live id rec → rec.badge.owner = u →
            id ∈ (Hub.sweep p.hub.now p.hub.sessions (p.hub, [])).2 := by
        intro id rec hlive howner
        obtain ⟨rec', hlive', hbadge⟩ := (Hub.chained_dwindles.sweep p.hub _ _ _).live hlive
        have har : rec.accessRequestId = rec'.accessRequestId :=
          congrArg Badge.accessRequestId hbadge
        have hsome := hbacked id rec' hlive' ((congrArg Badge.owner hbadge).symm.trans howner)
        rw [← har] at hsome
        exact Hub.mem_sweep (.inl hlive'.listed) hlive hsome
      constructor
      · intro l hl
        split at hl
        · cases hl
        · cases hl
          exact .inr ⟨_, _, rfl, hfound⟩
      · intro hnone _ id rec hlive howner
        have hmem := hfound id rec hlive howner
        split at hnone
        · rename_i hempty
          rw [hempty] at hmem
          cases hmem
        · cases hnone
    | _ => cases hact
  · cases a with
    | done =>
      cases hact
      refine ⟨fun l hl ↦ (by cases hl), fun _ _ id rec hlive howner ↦ ?_⟩
      have hjudge : ∀ s j, Hub.Dwindles s (Hub.judge now (p.arsOf withAr) s j) := fun s j ↦
        Hub.chained_dwindles.judge _ _ s j
      obtain ⟨rec', hlive', hbadge⟩ := (Hub.chained_dwindles.foldl hjudge p.hub withAr).live hlive
      have howner' : rec'.badge.owner = u := (congrArg Badge.owner hbadge).symm.trans howner
      obtain ⟨requestId, har⟩ := Option.isSome_iff_exists.mp (hbacked id rec' hlive' howner')
      obtain ⟨row, hrow, hvisitor⟩ := hbacks id rec' hlive' requestId har
      have hid := hall id rec' hlive' howner'
      obtain ⟨ar, hfind, hstatus⟩ := find_arsOf hid hlive'.made har hrow
      have hu : u = ⟨row.requesterId, row.orgId⟩ := howner'.symm.trans (Option.some.inj hvisitor)
      have hover : Hub.Over ar.status := by
        rw [hstatus]
        exact hspent requestId row hrow (congrArg Owner.userId hu).symm
          (congrArg Owner.orgId hu).symm
      refine Hub.not_live_foldl hjudge (Hub.not_live_judge now (p.arsOf withAr)) hid hlive ?_
      refine ⟨ar, ?_, hover⟩
      rw [hbadge]
      show (rec'.accessRequestId.bind _) = some ar
      rw [har]
      exact hfind
    | failed =>
      cases hact
      exact ⟨fun l hl ↦ (by cases hl), fun _ ha ↦ (by cases ha)⟩
    | _ => cases hact

/-- The call in slot `i` looks for sessions of the user, and no connection of the user is under
way. -/
structure Checks (u : Owner) (i : Nat) (r : Pool Process Point) : Prop where
  barred : Barred u r
  gone : ∀ j k, r.calls j = some k → k.visitor ≠ some u
  call : ∀ k, r.calls i = some k → Looks u r.store k

theorem Checks.step (h : Checks u i r) (hs : (program ttl).step r e = some v)
    (hok : stillBacked u r e = true) (hsome : (r.calls i).isSome = true) : Checks u i v where
  barred := h.barred.step hs hok
  gone := visitor_ne_of_step h.gone hs (Bool.and_eq_true_iff.mp hok).1
  call l hl := by
    obtain ⟨k, hk⟩ := Option.isSome_iff_exists.mp hsome
    obtain ⟨a, rfl⟩ | ⟨-, hnone⟩ | hsame := Program.calls_of_step hk hs
    · obtain ⟨k₀, ⟨q, k'⟩, hk₀, hact, rfl⟩ := Program.step_act hs
      obtain ⟨hnext, -⟩ :=
        (h.call k₀ hk₀).act hact h.barred.founded.live h.barred.spent h.barred.backed
      exact hnext l ((calls_update.mp hl).resolve_right fun hne ↦ hne.1 rfl).2
    · cases hnone.symm.trans hl
    · obtain rfl := Option.some.inj (hsame.symm.trans hl)
      exact (h.call k hk).step h.gone hs

theorem not_live_of_checked (h : Barred u r)
    (hsettled : ∀ j k, r.calls j = some k → k.visitor ≠ some u)
    (htick : (program ttl).Served (fun r e _ ↦ stillBacked u r e = true) i .checkExpiries .done r v) :
    ∀ id rec, v.store.hub.Live id rec → rec.badge.owner ≠ u := by
  have hspawn : ∀ t, (program ttl).step r (.spawn i .checkExpiries) = some t →
      stillBacked u r (.spawn i .checkExpiries) = true → Checks u i t := by
    intro t hs hok
    refine ⟨h.step hs hok, visitor_ne_of_step hsettled hs (Bool.and_eq_true_iff.mp hok).1, ?_⟩
    intro k hk
    obtain ⟨-, rfl⟩ := Program.step_spawn hs
    obtain ⟨-, hk⟩ := (calls_update.mp hk).resolve_right fun hne ↦ hne.1 rfl
    obtain rfl := Option.some.inj hk
    exact .inl rfl
  obtain ⟨t, ht, hlast, -, hret⟩ := htick.invariant hspawn
    fun _ _ _ ht hs hok hsome ↦ ht.step hs hok hsome
  obtain ⟨k, ⟨q, k'⟩, hk, hact, rfl⟩ := Program.step_act hlast
  have hret : Function.update t.calls i k' i = none := hret
  rw [Function.update_self] at hret
  obtain ⟨-, hdone⟩ := (ht.call k hk).act hact ht.barred.founded.live ht.barred.spent ht.barred.backed
  exact hdone hret rfl

/-- **A suspended user keeps no live terminal, if no session without an access request is registered
once the revocation is done.** -/
theorem run_keepsNone {users : Id → Option Account} {requests : Id → Option AccessRequest}
    {es fs : List (Lib.Event Call Answer Outside)} {reason : String} {j : Nat}
    {p₀ p₁ p₂ p₃ : Pool Process Point}
    (hbefore : Run (program ttl).step free (Program.idle Point { users, requests }) es p₀)
    (hrevoke : (program ttl).Served (fun r e _ ↦ stillBarred u r e = true) i
      (.revokeAllAccessFor u.orgId u.userId reason) .done p₀ p₁)
    (hrun : Run (program ttl).step (fun r e _ ↦ stillBacked u r e = true) p₁ fs p₂)
    (hsettled : ∀ j k, p₂.calls j = some k → k.visitor ≠ some u)
    (htick : (program ttl).Served (fun r e _ ↦ stillBacked u r e = true) j .checkExpiries .done p₂ p₃) :
    ∀ id rec, p₃.store.hub.Live id rec → ⟨rec.userId, rec.orgId⟩ ≠ u := by
  have hfounded : Founded p₀ := hbefore.invariant founded_idle fun _ _ _ h hs _ ↦ h.step hs
  have hbarred : Barred u p₁ := barred_of_revoked hfounded hrevoke
  have hbarred₂ : Barred u p₂ := hrun.invariant hbarred fun _ _ _ h hs hok ↦ h.step hs hok
  exact not_live_of_checked hbarred₂ hsettled htick

end

def oneRequest (id : Id) : Option AccessRequest :=
  if id = "request" then
    some { orgId := "org", requesterId := "user", status := .approved, expiresAt := some 1000 }
  else none

def withRequest : List (Lib.Event Call Answer Outside) :=
  [.spawn 0 .handleConnection, .act 0 .done,
    .act 0 (.ticket { userId := "user", orgId := "org", requestId := some "request" }), .act 0 .done,
    .act 0 .done, .act 0 .done, .act 0 (.authMode .credential), .act 0 .done,
    .act 0 (.connected false), .act 0 (.session "session"), .act 0 .done]

def suspend : Lib.Event Call Answer Outside :=
  .env (.account "user" { orgId := "org", status := .suspended })

def revokeUser : Call := .revokeAllAccessFor "org" "user" "suspended"

theorem settled_of_two {r : Pool Process Point} {u : Owner} (h : ∀ j, r.calls (j + 2) = none)
    (h₀ : r.calls 0 = none) (h₁ : r.calls 1 = none) :
    ∀ j k, r.calls j = some k → k.visitor ≠ some u := by
  intro j k hk
  match j with
  | 0 => cases h₀.symm.trans hk
  | 1 => cases h₁.symm.trans hk
  | j + 2 => cases (h j).symm.trans hk

/-- The connection registers its session when the revocation is done, and the tick ends it. -/
theorem run_keepsNone_withRequest : ∃ p₂ p₃ : Pool Process Point,
    p₂.store.hub.sessions = ["session"] ∧ p₃.store.hub.sessions = [] ∧
      ∀ id rec, p₃.store.hub.Live id rec → (⟨rec.userId, rec.orgId⟩ : Owner) ≠ ⟨"user", "org"⟩ := by
  have h : ∃ p₀ q₀ q₁ p₁ p₂ q₂ q₃ p₃ : Pool Process Point,
      exec (program 900).step (Program.idle Point { users := oneUser, requests := oneRequest })
        (withRequest ++ [suspend]) = some p₀ ∧
      execIf (program 900).step (stillBarred ⟨"user", "org"⟩) p₀ [.spawn 1 revokeUser] = some q₀ ∧
      execIf (program 900).step
        (fun t e ↦ stillBarred ⟨"user", "org"⟩ t e && (t.calls 1).isSome) q₀
        (List.replicate 4 (.act 1 .done)) = some q₁ ∧
      execIf (program 900).step (stillBarred ⟨"user", "org"⟩) q₁ [.act 1 .done] = some p₁ ∧
      p₁.calls 1 = none ∧
      execIf (program 900).step (stillBacked ⟨"user", "org"⟩) p₁ [.act 0 (.opened false)] = some p₂ ∧
      (∀ j, p₂.calls (j + 2) = none) ∧ p₂.calls 0 = none ∧ p₂.calls 1 = none ∧
      execIf (program 900).step (stillBacked ⟨"user", "org"⟩) p₂ [.spawn 1 .checkExpiries] = some q₂ ∧
      execIf (program 900).step
        (fun t e ↦ stillBacked ⟨"user", "org"⟩ t e && (t.calls 1).isSome) q₂ [.act 1 .done] = some q₃ ∧
      execIf (program 900).step (stillBacked ⟨"user", "org"⟩) q₃ [.act 1 .done] = some p₃ ∧
      p₃.calls 1 = none ∧ p₂.store.hub.sessions = ["session"] ∧ p₃.store.hub.sessions = [] :=
    ⟨_, _, _, _, _, _, _, _, rfl, rfl, rfl, rfl, rfl, rfl, fun _ ↦ rfl, rfl, rfl, rfl, rfl, rfl, rfl,
      rfl, rfl⟩
  obtain ⟨p₀, q₀, q₁, p₁, p₂, q₂, q₃, p₃, hbefore, hspawn, hrun, hlast, hret, hafter, hfree, hfree₀,
    hfree₁, hspawn', hrun', hlast', hret', hthere, hgone⟩ := h
  exact ⟨p₂, p₃, hthere, hgone, run_keepsNone (run_of_exec hbefore)
    (Program.served_of_execIf hspawn hrun hlast hret) (run_of_execIf hafter)
    (settled_of_two hfree hfree₀ hfree₁) (Program.served_of_execIf hspawn' hrun' hlast' hret')⟩

/-- A Quick Connect connection registers its session when the revocation is done; the user is
suspended, nothing is under way any more, a tick has run, and the session is live. -/
theorem quickConnect_outlives : ∃ (es : List (Lib.Event Call Answer Outside))
    (p₀ p₁ p₂ p₃ : Pool Process Point),
    Run (program 900).step free (Program.idle Point { users := oneUser }) es p₀ ∧
    (program 900).Served (fun r e _ ↦ stillBarred ⟨"user", "org"⟩ r e = true) 1 revokeUser .done
      p₀ p₁ ∧
    Run (program 900).step (fun r e _ ↦ stillBarred ⟨"user", "org"⟩ r e = true) p₁
      [.act 0 (.opened true)] p₂ ∧
    (∀ j k, p₂.calls j = some k → k.visitor ≠ some ⟨"user", "org"⟩) ∧
    (program 900).Served (fun r e _ ↦ stillBarred ⟨"user", "org"⟩ r e = true) 1 .checkExpiries .done
      p₂ p₃ ∧
    ∃ rec, p₃.store.hub.Live "session" rec ∧ rec.userId = "user" ∧ rec.orgId = "org" := by
  have h : ∃ (p₀ q₀ q₁ p₁ p₂ q₂ p₃ : Pool Process Point) (rec : Rec),
      exec (program 900).step (Program.idle Point { users := oneUser }) (quickConnect ++ [suspend]) =
        some p₀ ∧
      execIf (program 900).step (stillBarred ⟨"user", "org"⟩) p₀ [.spawn 1 revokeUser] = some q₀ ∧
      execIf (program 900).step
        (fun t e ↦ stillBarred ⟨"user", "org"⟩ t e && (t.calls 1).isSome) q₀
        (List.replicate 4 (.act 1 .done)) = some q₁ ∧
      execIf (program 900).step (stillBarred ⟨"user", "org"⟩) q₁ [.act 1 .done] = some p₁ ∧
      p₁.calls 1 = none ∧
      execIf (program 900).step (stillBarred ⟨"user", "org"⟩) p₁ [.act 0 (.opened true)] = some p₂ ∧
      (∀ j, p₂.calls (j + 2) = none) ∧ p₂.calls 0 = none ∧ p₂.calls 1 = none ∧
      execIf (program 900).step (stillBarred ⟨"user", "org"⟩) p₂ [.spawn 1 .checkExpiries] = some q₂ ∧
      execIf (program 900).step
        (fun t e ↦ stillBarred ⟨"user", "org"⟩ t e && (t.calls 1).isSome) q₂ [] = some q₂ ∧
      execIf (program 900).step (stillBarred ⟨"user", "org"⟩) q₂ [.act 1 .done] = some p₃ ∧
      p₃.calls 1 = none ∧ p₃.store.hub.recs "session" = some rec ∧
      p₃.store.hub.sessions = ["session"] ∧ rec.ended = false ∧ rec.userId = "user" ∧
      rec.orgId = "org" :=
    ⟨_, _, _, _, _, _, _, _, rfl, rfl, rfl, rfl, rfl, rfl, fun _ ↦ rfl, rfl, rfl, rfl, rfl, rfl, rfl,
      rfl, rfl, rfl, rfl, rfl⟩
  obtain ⟨p₀, q₀, q₁, p₁, p₂, q₂, p₃, rec, hbefore, hspawn, hrun, hlast, hret, hafter, hfree, hfree₀,
    hfree₁, hspawn', hrun', hlast', hret', hrec, hlisted, hopen, huser, horg⟩ := h
  have hlive : p₃.store.hub.Live "session" rec :=
    ⟨hrec, by rw [hlisted]; exact List.mem_singleton_self _, hopen⟩
  exact ⟨_, p₀, p₁, p₂, p₃, run_of_exec hbefore, Program.served_of_execIf hspawn hrun hlast hret,
    run_of_execIf hafter, settled_of_two hfree hfree₀ hfree₁,
    Program.served_of_execIf hspawn' hrun' hlast' hret', rec, hlive, huser, horg⟩

end Shellius.Terminal
