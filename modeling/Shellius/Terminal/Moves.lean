import Shellius.Terminal.Connections
import Shellius.Terminal.Dwindling

/-!
# The moves of a connection

What one step of a call does to the process, as far as sockets, clients and the people behind
them go.  A connection has a socket from the upgrade on, a visitor from the check of the user's
row on, an access request behind it once that has been found usable, and a client once it is
connected; it gives up its socket and its client, or hands them to the hub.
-/

namespace Shellius.Terminal

open Lib

namespace Point

/-- The socket that a call holds. -/
def socket : Point → Option Socket
  | .consume ws | .user ws _ | .scope ws _ | .quickTicket ws _ | .quickServer ws _ | .request ws _ _
  | .server ws _ _ _ => some ws
  | .auth c | .connect c | .hostKey c _ | .row c _ | .shell c _ _ | .writer c _ _ => some c.ws
  | _ => none

/-- The client that a call holds. -/
def client : Point → Option Client
  | .hostKey _ client | .row _ client | .shell _ client _ | .noShell client | .writer _ client _ =>
    some client
  | _ => none

/-- Who has passed the check of the user's row. -/
def visitor : Point → Option Owner
  | .scope _ t | .quickTicket _ t | .quickServer _ t | .request _ t _ | .server _ t _ _ => some t.owner
  | .auth c | .connect c | .hostKey c _ | .row c _ | .shell c _ _ | .writer c _ _ => some c.owner
  | _ => none

/-- The access request that has been found usable. -/
def backing : Point → Option Id
  | .server _ _ requestId _ => some requestId
  | .auth c | .connect c | .hostKey c _ | .row c _ | .shell c _ _ | .writer c _ _ => c.accessRequestId
  | _ => none

/-- The call is no connection, or none that has a socket yet. -/
structure Bare (k : Point) : Prop where
  socket : k.socket = none
  client : k.client = none
  visitor : k.visitor = none
  backing : k.backing = none

/-- The socket that the next step may hand to the hub. -/
def joins : Point → Option Socket
  | .scope ws t => if (truthy t.attach).isSome then some ws else none
  | .writer c _ _ => some c.ws
  | _ => none

end Point

/-- The row says that the access request is the visitor's. -/
def Process.Backs (p : Process) (requestId : Id) (visitor : Option Owner) : Prop :=
  ∃ row, p.requests requestId = some row ∧ visitor = some ⟨row.requesterId, row.orgId⟩

/-- What the next point takes over from the last one, and what has been checked for it. -/
structure Vetted (p : Process) (k k' : Point) : Prop where
  socket : k'.socket = k.socket
  visitor : k'.visitor = k.visitor ∨ ∃ t : WsTicket, k'.visitor = some t.owner ∧ p.admits t = true
  backing : ∀ requestId ∈ k'.backing,
    requestId ∈ k.backing ∧ k'.visitor = k.visitor ∨ p.Backs requestId k'.visitor

/-- The user is not active. -/
def Process.bars (u : Owner) (p : Process) : Bool :=
  (p.users u.userId).all fun user ↦ ¬ (user.orgId = u.orgId ∧ user.status = .active)

/-- What becomes of the access requests. -/
structure Ages (p q : Process) : Prop where
  row : ∀ {id row}, p.requests id = some row → ∃ row', q.requests id = some row' ∧
    row'.requesterId = row.requesterId ∧ row'.orgId = row.orgId ∧
    mayBecome row.status row'.status = true
  new : ∀ {id row}, q.requests id = some row → p.requests id = none →
    p.bars ⟨row.requesterId, row.orgId⟩ = false

/-- What the hub does apart from the connections. -/
structure Hub.Drifts (ttl : Nat) (s t : Hub) : Prop where
  follows : s.Sound ttl → Follows ttl s t
  dwindles : Dwindles s t
  writers : s.Sound ttl → KeepsWriters s t

/-- A step of a call. -/
inductive Move (ttl : Nat) (p : Process) : Point → Process → Option Point → Prop
  | accept {q : Process} {k' : Option Point} :
      (q = { p with nextSocket := p.nextSocket + 1 } ∧ k' = some (.consume p.nextSocket) ∨
        q = { p with nextSocket := p.nextSocket + 1 }.safeClose p.nextSocket ∧ k' = none) →
      Move ttl p .upgrade q k'
  | refuse {k : Point} {k' : Option Point} {ws : Socket} : k.socket = some ws →
      (∀ l ∈ k', l.socket = none ∧ l.client = k.client ∧ l.visitor = none ∧ l.backing = none) →
      (∀ client ∈ k.client, k' = none → client ∈ p.down) → Move ttl p k (p.safeClose ws) k'
  | go {k k' : Point} : k'.client = k.client → Vetted p k k' → Move ttl p k p (some k')
  | attach {ws : Socket} {t : WsTicket} {sessionId : Id} {hub : Hub} :
      (Point.scope ws t).joins = some ws → p.hub.attach sessionId ws t.owner = .ok hub →
      Move ttl p (.scope ws t) { p with hub, wired := p.wired ++ [(ws, sessionId)] } none
  | connect {c : Meta} {k' : Point} :
      k' = .hostKey c p.nextClient ∨ k' = .row c p.nextClient →
      Move ttl p (.connect c) { p with nextClient := p.nextClient + 1 } (some k')
  | abandon {k : Point} {client : Client} {ws : Socket} : k.client = some client →
      k.socket = some ws → Move ttl p k ((p.endClient client).safeClose ws) none
  | complain {c : Meta} {client : Client} {sessionId : Id} :
      Move ttl p (.shell c client sessionId) (p.safeClose c.ws) (some (.shell c client sessionId))
  | release {client : Client} : Move ttl p (.noShell client) (p.endClient client) none
  | register {c : Meta} {client : Client} {sessionId : Id} {recording : Bool} :
      p.hub.recs sessionId = none →
      Move ttl p (.writer c client sessionId) (p.register c client sessionId recording) none
  | service {k : Point} {k' : Option Point} {hub : Hub} {users : Id → Option Account}
      {requests : Id → Option AccessRequest} : k.Bare → (∀ l ∈ k', l.Bare) →
      p.hub.Drifts ttl hub → Ages p { p with hub, users, requests } →
      Move ttl p k { p with hub, users, requests } k'

variable {ttl : Nat} {p q : Process} {k : Point} {k' : Option Point} {a : Answer}

namespace Hub

variable {s t : Hub} {id j : Id} {ws : Socket}

theorem Drifts.refl (s : Hub) : Drifts ttl s s := ⟨fun _ ↦ .refl s, .refl s, fun _ ↦ .refl s⟩

theorem chained_drifts : Chained (Drifts ttl) where
  refl := .refl
  trans h h' := ⟨fun hs ↦ (h.follows hs).trans (h'.follows (hs.follows (h.follows hs))),
    h.dwindles.trans h'.dwindles,
    fun hs ↦ (h.writers hs).trans (h'.writers (hs.follows (h.follows hs)))⟩
  endSession s j reason extra := ⟨chained_follows.endSession s j reason extra,
    chained_dwindles.endSession s j reason extra,
    fun _ ↦ chained_keepsWriters.endSession s j reason extra⟩
  refresh s j expiresAt := ⟨chained_follows.refresh s j expiresAt,
    chained_dwindles.refresh s j expiresAt, fun _ ↦ chained_keepsWriters.refresh s j expiresAt⟩
  checks s checks := ⟨chained_follows.checks s checks, chained_dwindles.checks s checks,
    fun _ ↦ chained_keepsWriters.checks s checks⟩

theorem drifts_of_eq (hlife : ∀ id, t.life id = s.life id) (hrecs : t.recs = s.recs)
    (hsessions : t.sessions = s.sessions) (hclosed : t.closed = s.closed)
    (heffects : t.effects = s.effects) : Drifts ttl s t :=
  ⟨fun _ ↦ follows_of_life_eq hlife, dwindles_of_eq hrecs hsessions hclosed,
    fun _ ↦ keepsWriters_of_eq hrecs hsessions fun _ he ↦ heffects ▸ he⟩

theorem drifts_step {e : Event} (he : ofHub e = true) (ht : step ttl s e = some t) :
    Drifts ttl s t := by
  cases e with
  | data j chunk =>
    obtain ⟨rec, -, rfl⟩ := Option.map_eq_some_iff.mp ht
    exact ⟨fun _ ↦ follows_onData s j rec chunk, dwindles_onData s j rec chunk,
      fun _ ↦ keepsWriters_onData s j rec chunk⟩
  | endSession j reason extra =>
    obtain rfl := Option.some.inj ht
    exact chained_drifts.endSession s j reason extra
  | closeOwned j owner =>
    rw [step] at ht
    split at ht
    · rename_i hok
      obtain rfl := Option.some.inj ht
      exact chained_drifts.closeOwned hok
    · obtain rfl := Option.some.inj ht
      exact .refl s
  | resume i ok =>
    exact ⟨fun _ ↦ follows_resume ht, dwindles_resume ht, fun hs ↦ keepsWriters_resume hs ht⟩
  | fire timer =>
    rw [step] at ht
    split at ht
    · obtain rfl := Option.some.inj ht
      exact ⟨fun hs ↦ follows_fire hs timer, dwindles_fire s timer,
        fun _ ↦ keepsWriters_fire s timer⟩
    · cases ht
  | endAllForUser userId orgId reason =>
    obtain rfl := Option.some.inj ht
    exact chained_drifts.endAllForUser s userId orgId reason
  | endAll reason =>
    obtain rfl := Option.some.inj ht
    exact chained_drifts.endAll s reason
  | tick ms =>
    obtain rfl := Option.some.inj ht
    exact drifts_of_eq (fun _ ↦ rfl) rfl rfl rfl rfl
  | create | addSocket | attach | detach | checkExpiries | checked | close => cases he

/-! ### Sessions that get a socket -/

/-- The record of a session that has just been registered with its first socket. -/
def firstRec (s : Hub) (owner : Owner) (recording : Bool) (arId : Option Id)
    (arExpiresAt : Option Millis) (ws : Socket) : Rec where
  orgId := owner.orgId
  userId := owner.userId
  sockets := [ws]
  recordingWriter := if recording then some [] else none
  accessRequestId := arId
  accessRequestExpiresAt := arExpiresAt
  startedAt := s.now
  lastActivityAt := s.now

theorem addSocket_create {owner : Owner} {recording : Bool} {arId : Option Id}
    {arExpiresAt : Option Millis} :
    (s.create j owner recording arId arExpiresAt).addSocket j ws =
      { s with
        sessions := s.sessions ++ [j]
        recs := Function.update s.recs j
          (some (s.firstRec owner recording arId arExpiresAt ws)) } := by
  have hlive : (s.create j owner recording arId arExpiresAt).Live j
      { s.firstRec owner recording arId arExpiresAt ws with sockets := [] } :=
    ⟨Function.update_self .., List.mem_append_right _ (List.mem_singleton_self j), rfl⟩
  obtain ⟨hdead, -⟩ | ⟨rec, hlive', he⟩ :=
    addSocket_cases (s.create j owner recording arId arExpiresAt) j ws
  · exact absurd hlive (hdead _)
  · obtain rfl := Option.some.inj (hlive.made.symm.trans hlive'.made)
    rw [he]
    unfold create
    simp [Function.update_idem, firstRec, addTo]

theorem live_attach {owner : Owner} {hub : Hub} (hok : s.attach j ws owner = .ok hub) {rec : Rec}
    (hlive : hub.Live id rec) : ∃ rec', s.Live id rec' ∧ rec.badge.owner = rec'.badge.owner ∧
      rec.accessRequestId = rec'.accessRequestId ∧
      ∀ w ∈ rec.sockets, w ∈ rec'.sockets ∨ w = ws ∧ id = j := by
  obtain ⟨recj, greeting, howned, -, rfl⟩ := attach_ok hok
  obtain ⟨hlivej, -⟩ := live_of_requireOwned howned
  have hmade := hlive.made
  dsimp only at hmade
  by_cases hid : id = j
  · subst hid
    rw [Function.update_self] at hmade
    cases hmade
    refine ⟨recj, hlivej, rfl, rfl, fun w hw ↦ ?_⟩
    unfold addTo at hw
    dsimp only at hw
    split at hw
    · exact .inl hw
    · obtain hw | hw := List.mem_append.mp hw
      · exact .inl hw
      · exact .inr ⟨List.mem_singleton.mp hw, rfl⟩
  · rw [Function.update_of_ne hid] at hmade
    exact ⟨rec, ⟨hmade, hlive.listed, hlive.open_⟩, rfl, rfl, fun w hw ↦ .inl hw⟩

end Hub

theorem Process.hub_register (p : Process) (c : Meta) (client : Client) (j : Id) (recording : Bool) :
    (p.register c client j recording).hub = { p.hub with
      sessions := p.hub.sessions ++ [j]
      recs := Function.update p.hub.recs j (some (p.hub.firstRec c.owner recording
        c.accessRequestId c.accessRequestExpiresAt c.ws)) } := Hub.addSocket_create

theorem Process.live_register {c : Meta} {client : Client} {id j : Id} {recording : Bool} {rec : Rec}
    (hlive : (p.register c client j recording).hub.Live id rec) : p.hub.Live id rec ∨ id = j ∧
      rec = p.hub.firstRec c.owner recording c.accessRequestId c.accessRequestExpiresAt c.ws := by
  have hmade := hlive.made
  have hlisted := hlive.listed
  rw [p.hub_register] at hmade hlisted
  dsimp only at hmade hlisted
  by_cases hid : id = j
  · subst hid
    rw [Function.update_self] at hmade
    exact .inr ⟨rfl, (Option.some.inj hmade).symm⟩
  · rw [Function.update_of_ne hid] at hmade
    obtain hlisted | hlisted := List.mem_append.mp hlisted
    · exact .inl ⟨hmade, hlisted, hlive.open_⟩
    · exact absurd (List.mem_singleton.mp hlisted) hid

/-! ## The tables -/

theorem mayBecome_refl (status : AccessRequestStatus) : mayBecome status status = true := by
  cases status <;> decide

theorem ages_of_eq (h : q.requests = p.requests) : Ages p q where
  row hrow := ⟨_, h ▸ hrow, rfl, rfl, mayBecome_refl _⟩
  new hrow hnone := by
    rw [h, hnone] at hrow
    cases hrow

theorem ages_revokeRequests (p : Process) (orgId userId : Id) :
    Ages p (p.revokeRequests orgId userId) where
  row {id row} hrow := by
    refine ⟨_, congrArg (Option.map _) hrow, ?_⟩
    dsimp only
    split
    · rename_i hrevoked
      refine ⟨rfl, rfl, ?_⟩
      obtain ⟨-, -, hpending | happroved⟩ := hrevoked
      · rw [hpending]
        rfl
      · rw [happroved]
        rfl
    · exact ⟨rfl, rfl, mayBecome_refl _⟩
  new hrow hnone := by
    obtain ⟨row', hrow', -⟩ := Option.map_eq_some_iff.mp hrow
    cases hnone.symm.trans hrow'

/-! ## Each step is a move -/

theorem refuse_of_socket {ws : Socket} (hsocket : k.socket = some ws) (hclient : k.client = none) :
    Move ttl p k (p.safeClose ws) none := by
  refine .refuse hsocket ?_ ?_
  · intro l hl
    cases hl
  · intro client hc
    rw [hclient] at hc
    cases hc

theorem vetted_of_eq {k' : Point} (hsocket : k'.socket = k.socket) (hvisitor : k'.visitor = k.visitor)
    (hbacking : k'.backing = k.backing) : Vetted p k k' :=
  ⟨hsocket, .inl hvisitor, fun _ hr ↦ .inl ⟨hbacking ▸ hr, hvisitor⟩⟩

theorem move_of_handle (h : handle p k a = some (q, k')) : Move ttl p k q k' := by
  unfold handle at h
  split at h
  · cases h
    exact .accept (.inl ⟨rfl, rfl⟩)
  · cases h
    exact .accept (.inr ⟨rfl, rfl⟩)
  · split at h
    · cases h
      exact refuse_of_socket rfl rfl
    · cases h
      exact .go rfl (vetted_of_eq rfl rfl rfl)
  · rename_i ws t
    split at h
    · rename_i hadmits
      cases h
      refine .go rfl ⟨rfl, .inr ⟨t, rfl, hadmits⟩, ?_⟩
      intro requestId hr
      cases hr
    · cases h
      exact refuse_of_socket rfl rfl
  · split at h
    · rename_i ws t sessionId hattach
      split at h
      · rename_i hub hok
        cases h
        refine .attach ?_ hok
        rw [Point.joins, hattach]
        rfl
      · cases h
        exact refuse_of_socket rfl rfl
    · cases h
      exact .go rfl (vetted_of_eq rfl rfl rfl)
    · cases h
      exact .go rfl (vetted_of_eq rfl rfl rfl)
  · cases h
    exact .go rfl (vetted_of_eq rfl rfl rfl)
  · cases h
    exact .go rfl (vetted_of_eq rfl rfl rfl)
  · rename_i ws t requestId
    split at h
    · cases h
      exact refuse_of_socket rfl rfl
    · rename_i row hrow
      split at h
      · rename_i husable
        cases h
        refine .go rfl ⟨rfl, .inl rfl, ?_⟩
        rintro _ ⟨⟩
        simp only [Process.usable, decide_eq_true_eq] at husable
        obtain ⟨horg, hrequester, -⟩ := husable
        exact .inr ⟨row, hrow, by rw [horg, hrequester]; rfl⟩
      · cases h
        exact refuse_of_socket rfl rfl
  · cases h
    exact .go rfl (vetted_of_eq rfl rfl rfl)
  · cases h
    exact .go rfl (vetted_of_eq rfl rfl rfl)
  iterate 8
    · cases h
      exact refuse_of_socket rfl rfl
  · cases h

theorem move_of_runSsh2Session (h : runSsh2Session p k a = some (q, k')) : Move ttl p k q k' := by
  unfold runSsh2Session at h
  split at h
  · cases h
    exact refuse_of_socket rfl rfl
  · dsimp only at h
    split at h
    · cases h
      exact .connect (.inl rfl)
    · cases h
      exact .connect (.inr rfl)
  · cases h
    exact .abandon rfl rfl
  · cases h
    exact .go rfl (vetted_of_eq rfl rfl rfl)
  · cases h
    exact .abandon rfl rfl
  · split at h
    · rename_i hdown
      cases h
      refine .refuse rfl ?_ ?_
      · intro l hl
        cases hl
      · rintro _ ⟨⟩ -
        exact hdown
    · cases h
      exact .go rfl (vetted_of_eq rfl rfl rfl)
  · cases h
    exact .complain
  · cases h
    refine .refuse rfl ?_ ?_
    · rintro _ ⟨⟩
      exact ⟨rfl, rfl, rfl, rfl⟩
    · intro client _ hnone
      cases hnone
  · cases h
    exact .go rfl (vetted_of_eq rfl rfl rfl)
  · cases h
    exact .release
  · cases h
    exact .release
  · split at h
    · rename_i hfresh
      cases h
      exact .register hfresh
    · cases h
  · cases h

theorem move_of_revoke (h : revoke p k a = some (q, k')) : Move ttl p k q k' := by
  have hnone : ∀ l ∈ (none : Option Point), l.Bare := by
    intro l hl
    cases hl
  unfold revoke at h
  split at h
  · cases h
    refine .service ⟨rfl, rfl, rfl, rfl⟩ ?_ (.refl p.hub) (ages_of_eq rfl)
    rintro _ ⟨⟩
    exact ⟨rfl, rfl, rfl, rfl⟩
  · cases h
    refine .service ⟨rfl, rfl, rfl, rfl⟩ ?_ (.refl p.hub) (ages_revokeRequests p _ _)
    rintro _ ⟨⟩
    exact ⟨rfl, rfl, rfl, rfl⟩
  iterate 2
    · cases h
      refine .service ⟨rfl, rfl, rfl, rfl⟩ ?_ (.refl p.hub) (ages_of_eq rfl)
      rintro _ ⟨⟩
      exact ⟨rfl, rfl, rfl, rfl⟩
  · cases h
    exact .service ⟨rfl, rfl, rfl, rfl⟩ hnone (Hub.chained_drifts.endAllForUser p.hub _ _ _)
      (ages_of_eq rfl)
  iterate 4
    · cases h
      exact .service ⟨rfl, rfl, rfl, rfl⟩ hnone (.refl p.hub) (ages_of_eq rfl)
  · cases h

theorem move_of_check (h : check p k a = some (q, k')) : Move ttl p k q k' := by
  have hnone : ∀ l ∈ (none : Option Point), l.Bare := by
    intro l hl
    cases hl
  unfold check at h
  split at h
  · cases h
    refine .service ⟨rfl, rfl, rfl, rfl⟩ ?_ (Hub.chained_drifts.sweep p.hub _ _ _) (ages_of_eq rfl)
    split
    · exact hnone
    · rintro _ ⟨⟩
      exact ⟨rfl, rfl, rfl, rfl⟩
  · cases h
    exact .service ⟨rfl, rfl, rfl, rfl⟩ hnone
      (Hub.chained_drifts.foldl (fun s j ↦ Hub.chained_drifts.judge _ _ s j) _ _) (ages_of_eq rfl)
  · cases h
    exact .service ⟨rfl, rfl, rfl, rfl⟩ hnone (.refl p.hub) (ages_of_eq rfl)
  · cases h

/-- **Each step of a call is a move.** -/
theorem move_of_act (h : act p k a = some (q, k')) : Move ttl p k q k' := by
  unfold act at h
  split at h
  iterate 9 exact move_of_handle h
  iterate 6 exact move_of_runSsh2Session h
  iterate 5 exact move_of_revoke h
  iterate 2 exact move_of_check h

theorem calls_update {calls : Nat → Option Point} {i j : Nat} {k' : Option Point} {l : Point} :
    Function.update calls i k' j = some l ↔ j = i ∧ k' = some l ∨ j ≠ i ∧ calls j = some l := by
  by_cases hj : j = i
  · subst hj
    simp
  · simp [hj]

end Shellius.Terminal
