import Shellius.Terminal.Moves

/-!
# Every live session has somebody who attends it

A session that is live in the hub has an open socket, or a timer that will end it, and what a
connection has opened is in a live session or has been closed again.  The hub learns that a
socket has closed from the handler that is wired as the socket is handed over.  A socket that
closes before, during one of the `await`s of the connection, is handed over all the same, and
no handler will ever take it away.

So the sockets have to be open when the hub gets them.  Then the sockets of a live session are
always open: a socket that closes is detached from the one session it is wired to.
-/

namespace Shellius.Terminal

open Lib

/-! ## Sockets that come and go -/

namespace Hub

variable {ttl : Nat} {s t u : Hub} {id j : Id} {rec rec' : Rec} {ws : Socket}

theorem Follows.made (h : Follows ttl s t) (hrec : s.recs id = some rec) :
    ∃ rec', t.recs id = some rec' := by
  have hkept := Life.kept (P := fun l ↦ l.core.isSome = true) ?_ (l := s.life id) ?_ (h id)
  · obtain ⟨c, hc⟩ := Option.isSome_iff_exists.mp hkept
    obtain ⟨rec', hrec', -⟩ := Option.map_eq_some_iff.mp hc
    exact ⟨rec', hrec'⟩
  · intro l m hl hs
    cases hs <;> first | rfl | exact hl
  · rw [Hub.life, hrec]
    rfl

theorem Follows.watched (h : Follows ttl s t) (hw : (s.life id).Watched) : (t.life id).Watched :=
  Life.kept (fun _ _ ↦ Life.Watched.step) hw (h id)

theorem Sound.live_or_ended (h : s.Sound ttl) (hrec : s.recs id = some rec) :
    s.Live id rec ∨ rec.ended = true := by
  cases hended : rec.ended with
  | true => exact .inr rfl
  | false =>
    have hlisted : decide (id ∈ s.sessions) = !rec.ended := (h.made hrec).listed
    rw [hended] at hlisted
    exact .inl ⟨hrec, of_decide_eq_true hlisted, hended⟩

theorem keepsWriters_update (hrecs : t.recs = Function.update s.recs j (some rec'))
    (hsessions : t.sessions = s.sessions) (heffects : t.effects = s.effects)
    (hrec : s.recs j = some rec) (hended : rec'.ended = rec.ended)
    (hwriter : rec'.recordingWriter = rec.recordingWriter) : KeepsWriters s t :=
  keepsWriters_assign (f := fun r ↦
      { rec' with ended := r.ended, recordingWriter := r.recordingWriter }) (fun _ ↦ rfl)
    (fun _ h ↦ h) j (by rw [assign_eq hrec, ← hended, ← hwriter, hrecs]) hsessions heffects

theorem keepsWriters_detach (s : Hub) (ttl : Nat) (j : Id) (ws : Socket) :
    KeepsWriters s (s.detach ttl j ws) := by
  obtain ⟨-, he⟩ | ⟨rec, hrec, -, -, ⟨-, he⟩ | ⟨-, -, he⟩⟩ := detach_cases s ttl j ws
  · rw [he]
    exact .refl s
  · rw [he]
    exact keepsWriters_update rfl rfl rfl hrec rfl rfl
  · rw [he]
    exact keepsWriters_update rfl rfl rfl hrec rfl rfl

theorem notMem_detach (h : s.Sound ttl) (hlive : (s.detach ttl j ws).Live j rec') :
    ws ∉ rec'.sockets := by
  obtain ⟨rec, hlive₀, -⟩ := (sheds_detach s ttl j ws).live hlive
  have hnodup : rec.sockets.Nodup := (h.made hlive₀.made).sockets
  have hself : ∀ r : Rec, (Function.update s.recs j (some r)) j = some rec' → r = rec' := by
    intro r hr
    rw [Function.update_self] at hr
    exact Option.some.inj hr
  obtain ⟨hnotin, he⟩ | ⟨r, hrec, -, -, ⟨-, he⟩ | ⟨-, -, he⟩⟩ := detach_cases s ttl j ws
  · rw [he] at hlive
    exact hnotin rec' hlive
  · rw [he] at hlive
    obtain rfl := hself _ hlive.made
    obtain rfl := Option.some.inj (hlive₀.made.symm.trans hrec)
    exact fun hws ↦ (hnodup.mem_erase_iff.mp hws).1 rfl
  · rw [he] at hlive
    obtain rfl := hself _ hlive.made
    exact List.not_mem_nil

theorem foldl_detach (h : s.Sound ttl) (ids : List Id) (ws : Socket) :
    let u := ids.foldl (fun s id ↦ s.detach ttl id ws) s
    Follows ttl s u ∧ Sheds s u ∧ KeepsWriters s u ∧
      ∀ id ∈ ids, ∀ rec, u.Live id rec → ws ∉ rec.sockets := by
  induction ids generalizing s with
  | nil => exact ⟨.refl s, .refl s, .refl s, fun id hid ↦ by cases hid⟩
  | cons j ids ih =>
    have hfirst := follows_detach h j ws
    obtain ⟨hfollows, hsheds, hwriters, hgone⟩ := ih (h.follows hfirst)
    refine ⟨hfirst.trans hfollows, (sheds_detach s ttl j ws).trans hsheds,
      (keepsWriters_detach s ttl j ws).trans hwriters, ?_⟩
    intro id hid rec hlive
    obtain rfl | hid := List.mem_cons.mp hid
    · obtain ⟨rec', hlive', -, -, hsub⟩ := hsheds.live hlive
      exact fun hws ↦ notMem_detach h hlive' (hsub hws)
    · exact hgone id hid rec hlive

end Hub

/-! ## The process -/

section

variable {ttl : Nat} {p q : Process} {ws : Socket}

structure Tidy (ttl : Nat) (p : Process) : Prop where
  sound : p.hub.Sound ttl
  watched : ∀ id rec, p.hub.Live id rec → (p.hub.life id).Watched
  /-- The sockets of a live session are open and wired to it. -/
  open_ : ∀ id rec, p.hub.Live id rec → ∀ ws ∈ rec.sockets, ws ∉ p.hub.closed ∧ (ws, id) ∈ p.wired
  once : ∀ ws i j, (ws, i) ∈ p.wired → (ws, j) ∈ p.wired → i = j
  issued : ∀ ws i, (ws, i) ∈ p.wired → ws < p.nextSocket
  clients : ∀ id client, p.clientOf id = some client → ∃ rec, p.hub.recs id = some rec
  writers : ∀ id ∈ p.recorded, p.hub.Writes id

theorem tidy_empty {users : Id → Option Account} {requests : Id → Option AccessRequest} :
    Tidy ttl { users, requests } where
  sound := sound_empty
  watched _ _ hlive := by cases hlive.made
  open_ _ _ hlive := by cases hlive.made
  once _ _ _ h := by cases h
  issued _ _ h := by cases h
  clients _ _ h := by cases h
  writers _ h := by cases h

namespace Tidy

theorem drift (h : Tidy ttl p) {hub : Hub} {users : Id → Option Account}
    {requests : Id → Option AccessRequest} (hd : p.hub.Drifts ttl hub) :
    Tidy ttl { p with hub, users, requests } where
  sound := h.sound.follows (hd.follows h.sound)
  watched id rec hlive := by
    obtain ⟨rec', hlive', -⟩ := hd.dwindles.live hlive
    exact (hd.follows h.sound).watched (h.watched id rec' hlive')
  open_ id rec hlive ws hws := by
    obtain ⟨rec', hlive', hbadge⟩ := hd.dwindles.live hlive
    have hsockets : rec.sockets = rec'.sockets := congrArg Badge.sockets hbadge
    obtain ⟨hopen, hwired⟩ := h.open_ id rec' hlive' ws (hsockets ▸ hws)
    refine ⟨fun hclosed ↦ ?_, hwired⟩
    -- it would have closed with another session, but it is wired to this one
    obtain hclosed | ⟨j, recj, hlivej, hmem, hdead⟩ := hd.dwindles.closed hclosed
    · exact hopen hclosed
    · obtain rfl := h.once ws j id (h.open_ j recj hlivej ws hmem).2 hwired
      exact hdead rec hlive
  once := h.once
  issued := h.issued
  clients id client hc := by
    obtain ⟨rec, hrec⟩ := h.clients id client hc
    exact (hd.follows h.sound).made hrec
  writers id hid := hd.writers h.sound id (h.writers id hid)

theorem safeClose (h : Tidy ttl p) (hfree : ∀ id, (ws, id) ∉ p.wired) : Tidy ttl (p.safeClose ws) where
  sound := h.sound
  watched := fun id rec hlive ↦ h.watched id rec ⟨hlive.made, hlive.listed, hlive.open_⟩
  open_ id rec hlive ws' hws' := by
    obtain ⟨hopen, hwired⟩ := h.open_ id rec ⟨hlive.made, hlive.listed, hlive.open_⟩ ws' hws'
    refine ⟨fun hclosed ↦ ?_, hwired⟩
    obtain hclosed | hclosed := List.mem_append.mp hclosed
    · exact hopen hclosed
    · obtain rfl := List.mem_singleton.mp hclosed
      exact hfree id hwired
  once := h.once
  issued := h.issued
  clients := h.clients
  writers id hid := by
    have hkeeps : p.hub.KeepsWriters (p.safeClose ws).hub :=
      Hub.keepsWriters_of_eq rfl rfl fun _ he ↦ he
    exact hkeeps id (h.writers id hid)

theorem down (h : Tidy ttl p) (down : List Client) : Tidy ttl { p with down } :=
  ⟨h.sound, h.watched, h.open_, h.once, h.issued, h.clients, h.writers⟩

theorem nextClient (h : Tidy ttl p) (nextClient : Nat) : Tidy ttl { p with nextClient } :=
  ⟨h.sound, h.watched, h.open_, h.once, h.issued, h.clients, h.writers⟩

theorem nextSocket (h : Tidy ttl p) : Tidy ttl { p with nextSocket := p.nextSocket + 1 } :=
  ⟨h.sound, h.watched, h.open_, h.once, fun ws i hw ↦ Nat.lt_succ_of_lt (h.issued ws i hw),
    h.clients, h.writers⟩

theorem mem_wiredTo {id : Id} : id ∈ p.wiredTo ws ↔ (ws, id) ∈ p.wired := by
  simp [Process.wiredTo]

theorem detachAll (h : Tidy ttl p) (closed : List Socket) (hclosed : ∀ w ∈ closed, w = ws) :
    Tidy ttl (Process.detachAll ttl
      { p with hub := { p.hub with closed := p.hub.closed ++ closed } } ws) := by
  have hsound : ({ p.hub with closed := p.hub.closed ++ closed } : Hub).Sound ttl := h.sound
  obtain ⟨hfollows, hsheds, hwriters, hgone⟩ := Hub.foldl_detach hsound (p.wiredTo ws) ws
  constructor
  · exact hsound.follows hfollows
  · intro id rec hlive
    obtain ⟨rec', hlive', -⟩ := hsheds.live hlive
    exact hfollows.watched (h.watched id rec' ⟨hlive'.made, hlive'.listed, hlive'.open_⟩)
  · intro id rec hlive ws' hws'
    obtain ⟨rec', hlive', -, -, hsub⟩ := hsheds.live hlive
    obtain ⟨hopen, hwired⟩ :=
      h.open_ id rec' ⟨hlive'.made, hlive'.listed, hlive'.open_⟩ ws' (hsub hws')
    refine ⟨fun hmem ↦ ?_, hwired⟩
    obtain hmem | hmem := List.mem_append.mp ((congrArg (ws' ∈ ·) hsheds.closed).mp hmem)
    · exact hopen hmem
    · obtain rfl := hclosed ws' hmem
      exact hgone id (mem_wiredTo.mpr hwired) rec hlive hws'
  · exact h.once
  · exact h.issued
  · intro id client hc
    obtain ⟨rec, hrec⟩ := h.clients id client hc
    exact hfollows.made hrec
  · intro id hid
    have hstart : p.hub.KeepsWriters { p.hub with closed := p.hub.closed ++ closed } :=
      Hub.keepsWriters_of_eq rfl rfl fun _ he ↦ he
    exact hwriters id (hstart id (h.writers id hid))

theorem once_append (h : Tidy ttl p) (hfree : ∀ id, (ws, id) ∉ p.wired) {j : Id} :
    ∀ w i i', (w, i) ∈ p.wired ++ [(ws, j)] → (w, i') ∈ p.wired ++ [(ws, j)] → i = i' := by
  intro w i i' hi hi'
  obtain hi | hi := List.mem_append.mp hi
  · obtain hi' | hi' := List.mem_append.mp hi'
    · exact h.once w i i' hi hi'
    · cases List.mem_singleton.mp hi'
      exact absurd hi (hfree i)
  · cases List.mem_singleton.mp hi
    obtain hi' | hi' := List.mem_append.mp hi'
    · exact absurd hi' (hfree i')
    · cases List.mem_singleton.mp hi'
      rfl

theorem issued_append (h : Tidy ttl p) (hissued : ws < p.nextSocket) {j : Id} :
    ∀ w i, (w, i) ∈ p.wired ++ [(ws, j)] → w < p.nextSocket := by
  intro w i hi
  obtain hi | hi := List.mem_append.mp hi
  · exact h.issued w i hi
  · cases List.mem_singleton.mp hi
    exact hissued

theorem attach (h : Tidy ttl p) (hopen : ws ∉ p.hub.closed) (hfree : ∀ id, (ws, id) ∉ p.wired)
    (hissued : ws < p.nextSocket) {j : Id} {owner : Owner} {hub : Hub}
    (hok : p.hub.attach j ws owner = .ok hub) :
    Tidy ttl { p with hub, wired := p.wired ++ [(ws, j)] } := by
  have hfollows := Hub.follows_attach h.sound hok
  obtain ⟨recj, greeting, howned, -, hhub⟩ := Hub.attach_ok hok
  obtain ⟨hlivej, -⟩ := Hub.live_of_requireOwned howned
  constructor
  · exact h.sound.follows hfollows
  · intro id rec hlive
    obtain ⟨rec', hlive', -⟩ := Hub.live_attach hok hlive
    exact hfollows.watched (h.watched id rec' hlive')
  · intro id rec hlive w hw
    obtain ⟨rec', hlive', -, -, hsockets⟩ := Hub.live_attach hok hlive
    have hclosed : hub.closed = p.hub.closed := by rw [hhub]
    show w ∉ hub.closed ∧ _
    rw [hclosed]
    obtain hold | ⟨rfl, rfl⟩ := hsockets w hw
    · obtain ⟨hw, hwired⟩ := h.open_ id rec' hlive' w hold
      exact ⟨hw, List.mem_append_left _ hwired⟩
    · exact ⟨hopen, List.mem_append_right _ (List.mem_singleton_self _)⟩
  · exact h.once_append hfree
  · exact h.issued_append hissued
  · intro id client hc
    obtain ⟨rec, hrec⟩ := h.clients id client hc
    exact hfollows.made hrec
  · intro id hid
    have hwriters : p.hub.KeepsWriters hub := by
      rw [hhub]
      exact Hub.keepsWriters_update rfl rfl rfl hlivej.made rfl rfl
    exact hwriters id (h.writers id hid)

theorem register (h : Tidy ttl p) {c : Meta} (hopen : c.ws ∉ p.hub.closed)
    (hfree : ∀ id, (c.ws, id) ∉ p.wired) (hissued : c.ws < p.nextSocket) {client : Client} {j : Id}
    {recording : Bool} (hfresh : p.hub.recs j = none) :
    Tidy ttl (p.register c client j recording) := by
  have hcreate : Hub.Follows ttl p.hub (p.hub.create j c.owner recording c.accessRequestId
      c.accessRequestExpiresAt) := Hub.follows_create hfresh
  have hfollows : Hub.Follows ttl p.hub (p.register c client j recording).hub :=
    hcreate.trans (Hub.follows_addSocket (h.sound.follows hcreate) j c.ws)
  have hhub := p.hub_register c client j recording
  have hclosed : (p.register c client j recording).hub.closed = p.hub.closed := by rw [hhub]
  have hwriters : p.hub.KeepsWriters (p.register c client j recording).hub := by
    rw [hhub]
    rintro id (⟨rec, hlive, hsome⟩ | hdone)
    · have hid : id ≠ j := by
        rintro rfl
        cases hfresh.symm.trans hlive.made
      exact .inl ⟨rec, ⟨(Function.update_of_ne hid ..).trans hlive.made,
        List.mem_append_left _ hlive.listed, hlive.open_⟩, hsome⟩
    · exact .inr hdone
  constructor
  · exact h.sound.follows hfollows
  · intro id rec hlive
    obtain hlive | ⟨-, rfl⟩ := Process.live_register hlive
    · exact hfollows.watched (h.watched id rec hlive)
    · exact ⟨_, by rw [Hub.life, hlive.made]; rfl, fun _ ↦ .inl (List.cons_ne_nil _ _)⟩
  · intro id rec hlive w hw
    rw [hclosed]
    obtain hlive | ⟨rfl, rfl⟩ := Process.live_register hlive
    · obtain ⟨hw, hwired⟩ := h.open_ id rec hlive w hw
      exact ⟨hw, List.mem_append_left _ hwired⟩
    · cases List.mem_singleton.mp hw
      exact ⟨hopen, List.mem_append_right _ (List.mem_singleton_self _)⟩
  · exact h.once_append hfree
  · exact h.issued_append hissued
  · intro id cl hc
    by_cases hid : id = j
    · subst hid
      rw [hhub]
      exact ⟨_, Function.update_self ..⟩
    · have hc : p.clientOf id = some cl := (Function.update_of_ne hid ..).symm.trans hc
      obtain ⟨rec, hrec⟩ := h.clients id cl hc
      exact hfollows.made hrec
  · intro id hid
    by_cases hold : id ∈ p.recorded
    · exact hwriters id (h.writers id hold)
    · cases recording with
      | false => exact absurd hid hold
      | true =>
        obtain hid | hid := List.mem_append.mp hid
        · exact absurd hid hold
        · cases List.mem_singleton.mp hid
          rw [hhub]
          exact .inl ⟨_, ⟨Function.update_self .., List.mem_append_right _
            (List.mem_singleton_self _), rfl⟩, rfl⟩

end Tidy

end

/-! ## Runs -/

section

variable {ttl : Nat} {r u : Pool Process Point} {e : Lib.Event Call Answer Outside}
  {es : List (Lib.Event Call Answer Outside)}

/-- The sockets of connections are not wired yet and held by one connection each, and a client
that has been opened is down, has a session or is held by its connection. -/
structure Kept (ttl : Nat) (r : Pool Process Point) : Prop where
  tidy : Tidy ttl r.store
  free : ∀ i k ws, r.calls i = some k → k.socket = some ws →
    ws < r.store.nextSocket ∧ ∀ id, (ws, id) ∉ r.store.wired
  apart : ∀ i j k l ws, r.calls i = some k → r.calls j = some l → k.socket = some ws →
    l.socket = some ws → i = j
  held : ∀ client, client < r.store.nextClient → client ∈ r.store.down ∨
    (∃ id, r.store.clientOf id = some client) ∨
    ∃ i k, r.calls i = some k ∧ k.client = some client

/-- A step hands only open sockets to the hub, and no call dies. -/
def inTime (r : Pool Process Point) : Lib.Event Call Answer Outside → Bool
  | .act i _ => (r.calls i).all fun k ↦ k.joins.all fun ws ↦ ws ∉ r.store.hub.closed
  | .abort _ => false
  | .spawn .. | .env _ => true

/-- A call keeps its socket or gives it up, and the others keep theirs. -/
theorem Kept.sockets (h : Kept ttl r) {i : Nat} {k : Point} {k' : Option Point} {q : Process}
    (hk : r.calls i = some k) (hnext : r.store.nextSocket ≤ q.nextSocket)
    (hwired : ∀ w ∈ q.wired, w ∈ r.store.wired ∨ k' = none ∧ k.socket = some w.1)
    (hkeep : ∀ l ∈ k', ∀ ws, l.socket = some ws → k.socket = some ws ∨
      ws = r.store.nextSocket ∧ ws < q.nextSocket) :
    (∀ j l ws, Function.update r.calls i k' j = some l → l.socket = some ws →
      ws < q.nextSocket ∧ ∀ id, (ws, id) ∉ q.wired) ∧
    ∀ j j' l l' ws, Function.update r.calls i k' j = some l →
      Function.update r.calls i k' j' = some l' → l.socket = some ws → l'.socket = some ws →
      j = j' := by
  have hold : ∀ j l ws, j ≠ i → r.calls j = some l → l.socket = some ws →
      ws < r.store.nextSocket ∧ k.socket ≠ some ws := fun j l ws hj hl hws ↦
    ⟨(h.free j l ws hl hws).1, fun hks ↦ hj (h.apart j i l k ws hl hk hws hks)⟩
  constructor
  · intro j l ws hj hws
    obtain ⟨rfl, hl⟩ | ⟨hji, hl⟩ := calls_update.mp hj
    · have hnotin : ∀ id, (ws, id) ∉ q.wired := by
        intro id hmem
        obtain hmem | ⟨hnone, -⟩ := hwired _ hmem
        · obtain hks | ⟨rfl, -⟩ := hkeep l hl ws hws
          · exact (h.free _ k ws hk hks).2 id hmem
          · exact Nat.lt_irrefl _ (h.tidy.issued _ id hmem)
        · cases hnone.symm.trans hl
      obtain hks | ⟨-, hlt⟩ := hkeep l hl ws hws
      · exact ⟨Nat.lt_of_lt_of_le (h.free _ k ws hk hks).1 hnext, hnotin⟩
      · exact ⟨hlt, hnotin⟩
    · obtain ⟨hlt, hne⟩ := hold j l ws hji hl hws
      refine ⟨Nat.lt_of_lt_of_le hlt hnext, fun id hmem ↦ ?_⟩
      obtain hmem | ⟨-, hks⟩ := hwired _ hmem
      · exact (h.free j l ws hl hws).2 id hmem
      · exact hne hks
  · intro j j' l l' ws hj hj' hws hws'
    have hclash : ∀ m l₁ l₂, l₁ ∈ k' → l₁.socket = some ws → m ≠ i → r.calls m = some l₂ →
        l₂.socket = some ws → False := by
      intro m l₁ l₂ hl₁ hws₁ hm hl₂ hws₂
      obtain ⟨hlt, hne⟩ := hold m l₂ ws hm hl₂ hws₂
      obtain hks | ⟨rfl, -⟩ := hkeep l₁ hl₁ ws hws₁
      · exact hne hks
      · exact Nat.lt_irrefl _ hlt
    obtain ⟨rfl, hl⟩ | ⟨hji, hl⟩ := calls_update.mp hj
    · obtain ⟨rfl, hl'⟩ | ⟨hji', hl'⟩ := calls_update.mp hj'
      · rfl
      · exact (hclash j' l l' hl hws hji' hl' hws').elim
    · obtain ⟨rfl, hl'⟩ | ⟨hji', hl'⟩ := calls_update.mp hj'
      · exact (hclash j l' l hl' hws' hji hl hws).elim
      · exact h.apart j j' l l' ws hl hl' hws hws'

theorem Kept.clients (h : Kept ttl r) {i : Nat} {k : Point} {k' : Option Point} {q : Process}
    (hk : r.calls i = some k) (hdown : ∀ c ∈ r.store.down, c ∈ q.down)
    (hsessions : ∀ id c, r.store.clientOf id = some c → ∃ id, q.clientOf id = some c)
    (hnext : ∀ c, c < q.nextClient → c < r.store.nextClient ∨ ∃ l ∈ k', l.client = some c)
    (hkeep : ∀ c, k.client = some c → c ∈ q.down ∨ (∃ id, q.clientOf id = some c) ∨
      ∃ l ∈ k', l.client = some c) :
    ∀ c, c < q.nextClient → c ∈ q.down ∨ (∃ id, q.clientOf id = some c) ∨
      ∃ j l, Function.update r.calls i k' j = some l ∧ l.client = some c := by
  have hself : ∀ c, (∃ l ∈ k', l.client = some c) →
      ∃ j l, Function.update r.calls i k' j = some l ∧ l.client = some c := by
    rintro c ⟨l, hl, hc⟩
    exact ⟨i, l, (Function.update_self ..).trans hl, hc⟩
  intro c hc
  obtain hc | hnew := hnext c hc
  · obtain hc | ⟨id, hc⟩ | ⟨j, l, hl, hc⟩ := h.held c hc
    · exact .inl (hdown c hc)
    · exact .inr (.inl (hsessions id c hc))
    · by_cases hj : j = i
      · subst hj
        obtain rfl := Option.some.inj (hk.symm.trans hl)
        obtain hc | hc | hc := hkeep c hc
        · exact .inl hc
        · exact .inr (.inl hc)
        · exact .inr (.inr (hself c hc))
      · exact .inr (.inr ⟨j, l, (Function.update_of_ne hj ..).trans hl, hc⟩)
  · exact .inr (.inr (hself c hnew))

theorem Kept.act (h : Kept ttl r) {i : Nat} {k : Point} {k' : Option Point} {q : Process}
    (hk : r.calls i = some k) (htidy : Tidy ttl q) (hnext : r.store.nextSocket ≤ q.nextSocket)
    (hwired : ∀ w ∈ q.wired, w ∈ r.store.wired ∨ k' = none ∧ k.socket = some w.1)
    (hsocket : ∀ l ∈ k', ∀ ws, l.socket = some ws → k.socket = some ws ∨
      ws = r.store.nextSocket ∧ ws < q.nextSocket)
    (hdown : ∀ c ∈ r.store.down, c ∈ q.down)
    (hsessions : ∀ id c, r.store.clientOf id = some c → ∃ id, q.clientOf id = some c)
    (hnextClient : ∀ c, c < q.nextClient → c < r.store.nextClient ∨ ∃ l ∈ k', l.client = some c)
    (hclient : ∀ c, k.client = some c → c ∈ q.down ∨ (∃ id, q.clientOf id = some c) ∨
      ∃ l ∈ k', l.client = some c) :
    Kept ttl ⟨q, Function.update r.calls i k'⟩ where
  tidy := htidy
  free := (h.sockets hk hnext hwired hsocket).1
  apart := (h.sockets hk hnext hwired hsocket).2
  held := h.clients hk hdown hsessions hnextClient hclient

/-- Every move keeps it, if it hands only open sockets to the hub. -/
theorem Kept.move (h : Kept ttl r) {i : Nat} {k : Point} {k' : Option Point} {q : Process}
    (hk : r.calls i = some k) (hopen : ∀ ws ∈ k.joins, ws ∉ r.store.hub.closed)
    (hm : Move ttl r.store k q k') : Kept ttl ⟨q, Function.update r.calls i k'⟩ := by
  have hfree : ∀ ws, k.socket = some ws → ∀ id, (ws, id) ∉ r.store.wired := fun ws hws ↦
    (h.free i k ws hk hws).2
  have hissued : ∀ ws, k.socket = some ws → ws < r.store.nextSocket := fun ws hws ↦
    (h.free i k ws hk hws).1
  -- most moves touch neither the wiring nor the clients
  have hsame : ∀ w ∈ r.store.wired, w ∈ r.store.wired ∨ k' = none ∧ k.socket = some w.1 :=
    fun _ hw ↦ .inl hw
  have hdown : ∀ c ∈ r.store.down, c ∈ r.store.down := fun _ hc ↦ hc
  have hsessions : ∀ id c, r.store.clientOf id = some c → ∃ id, r.store.clientOf id = some c :=
    fun id _ hc ↦ ⟨id, hc⟩
  have hnext : ∀ c, c < r.store.nextClient →
      c < r.store.nextClient ∨ ∃ l ∈ k', l.client = some c := fun _ hc ↦ .inl hc
  cases hm with
  | accept hq =>
    have htidy := h.tidy.nextSocket
    obtain ⟨rfl, rfl⟩ | ⟨rfl, rfl⟩ := hq
    · refine h.act hk htidy (Nat.le_succ _) hsame ?_ hdown hsessions hnext ?_
      · rintro _ ⟨⟩ ws ⟨⟩
        exact .inr ⟨rfl, Nat.lt_succ_self _⟩
      · rintro _ ⟨⟩
    · have hnew : ∀ id, (r.store.nextSocket, id) ∉ r.store.wired := fun id hid ↦
        Nat.lt_irrefl _ (h.tidy.issued _ id hid)
      refine h.act hk (htidy.safeClose hnew) (Nat.le_succ _) hsame ?_ hdown hsessions hnext ?_
      · rintro _ ⟨⟩
      · rintro _ ⟨⟩
  | refuse hws hleft hdowned =>
    refine h.act hk (h.tidy.safeClose (hfree _ hws)) le_rfl hsame ?_ hdown hsessions hnext ?_
    · intro l hl ws hlws
      rw [(hleft l hl).1] at hlws
      cases hlws
    · intro c hc
      cases k' with
      | none => exact .inl (hdowned c hc rfl)
      | some l => exact .inr (.inr ⟨l, rfl, (hleft l rfl).2.1.trans hc⟩)
  | @go _ l hclient hvetted =>
    refine h.act hk h.tidy le_rfl hsame ?_ hdown hsessions hnext ?_
    · rintro _ ⟨⟩ ws hlws
      exact .inl (hvetted.socket.symm.trans hlws)
    · intro c hc
      exact .inr (.inr ⟨l, rfl, hclient.trans hc⟩)
  | @attach ws t j hub hjoins hok =>
    refine h.act hk (h.tidy.attach (hopen ws hjoins) (hfree ws rfl) (hissued ws rfl) hok) le_rfl
      ?_ ?_ hdown hsessions hnext ?_
    · intro w hw
      obtain hw | hw := List.mem_append.mp hw
      · exact .inl hw
      · cases List.mem_singleton.mp hw
        exact .inr ⟨rfl, rfl⟩
    · rintro _ ⟨⟩
    · rintro _ ⟨⟩
  | @connect c l hl =>
    have hsocket : l.socket = some c.ws := by obtain rfl | rfl := hl <;> rfl
    have hclient : l.client = some r.store.nextClient := by obtain rfl | rfl := hl <;> rfl
    refine h.act hk (h.tidy.nextClient _) le_rfl hsame ?_ hdown hsessions ?_ ?_
    · rintro _ ⟨⟩ ws hlws
      exact .inl (hsocket.symm.trans hlws)
    · intro c' hc'
      obtain hlt | rfl := Nat.lt_succ_iff_lt_or_eq.mp hc'
      · exact .inl hlt
      · exact .inr ⟨l, rfl, hclient⟩
    · rintro _ ⟨⟩
  | @abandon _ client ws hclient hws =>
    refine h.act hk ((h.tidy.down _).safeClose (hfree ws hws)) le_rfl hsame ?_
      (fun _ hc ↦ List.mem_append_left _ hc) hsessions hnext ?_
    · rintro _ ⟨⟩
    · intro c hc
      obtain rfl := Option.some.inj (hclient.symm.trans hc)
      exact .inl (List.mem_append_right _ (List.mem_singleton_self _))
  | @complain c client j =>
    refine h.act hk (h.tidy.safeClose (hfree c.ws rfl)) le_rfl hsame ?_ hdown hsessions hnext ?_
    · rintro _ ⟨⟩ ws hws
      exact .inl hws
    · intro c' hc
      exact .inr (.inr ⟨_, rfl, hc⟩)
  | @release client =>
    refine h.act hk (h.tidy.down _) le_rfl hsame ?_ (fun _ hc ↦ List.mem_append_left _ hc)
      hsessions hnext ?_
    · rintro _ ⟨⟩
    · rintro _ ⟨⟩
      exact .inl (List.mem_append_right _ (List.mem_singleton_self _))
  | @register c client j recording hfresh =>
    refine h.act hk (h.tidy.register (hopen c.ws rfl) (hfree c.ws rfl) (hissued c.ws rfl) hfresh)
      le_rfl ?_ ?_ hdown ?_ hnext ?_
    · intro w hw
      obtain hw | hw := List.mem_append.mp hw
      · exact .inl hw
      · cases List.mem_singleton.mp hw
        exact .inr ⟨rfl, rfl⟩
    · rintro _ ⟨⟩
    · intro id c' hc'
      have hid : id ≠ j := by
        rintro rfl
        obtain ⟨rec, hrec⟩ := h.tidy.clients _ c' hc'
        cases hfresh.symm.trans hrec
      exact ⟨id, (Function.update_of_ne hid ..).trans hc'⟩
    · rintro _ ⟨⟩
      exact .inr (.inl ⟨j, Function.update_self ..⟩)
  | service hbare hbare' hdrifts _ =>
    refine h.act hk (h.tidy.drift hdrifts) le_rfl hsame ?_ hdown hsessions hnext ?_
    · intro l hl ws hws
      rw [(hbare' l hl).socket] at hws
      cases hws
    · intro c hc
      rw [hbare.client] at hc
      cases hc

theorem Tidy.outside {p q : Process} (h : Tidy ttl p) {o : Outside}
    (ho : Terminal.outside ttl p o = some q) :
    Tidy ttl q ∧ q.nextSocket = p.nextSocket ∧ q.wired = p.wired ∧ q.nextClient = p.nextClient ∧
      (∀ c ∈ p.down, c ∈ q.down) ∧ q.clientOf = p.clientOf := by
  cases o with
  | hub e =>
    rw [Terminal.outside] at ho
    split at ho
    · rename_i he
      obtain ⟨hub, hhub, rfl⟩ := Option.map_eq_some_iff.mp ho
      exact ⟨h.drift (Hub.drifts_step he hhub), rfl, rfl, rfl, fun _ hc ↦ hc, rfl⟩
    · cases ho
  | close ws =>
    obtain rfl := Option.some.inj ho
    exact ⟨h.detachAll [ws] fun w hw ↦ List.mem_singleton.mp hw, rfl, rfl, rfl, fun _ hc ↦ hc, rfl⟩
  | error ws =>
    obtain rfl := Option.some.inj ho
    have hnone : ∀ w ∈ ([] : List Socket), w = ws := by
      intro w hw
      cases hw
    have htidy := h.detachAll [] hnone
    rw [List.append_nil] at htidy
    exact ⟨htidy, rfl, rfl, rfl, fun _ hc ↦ hc, rfl⟩
  | clientClose client =>
    obtain rfl := Option.some.inj ho
    exact ⟨h.down _, rfl, rfl, rfl, fun _ hc ↦ List.mem_append_left _ hc, rfl⟩
  | account | ask =>
    rw [Terminal.outside] at ho
    split at ho
    · obtain rfl := Option.some.inj ho
      exact ⟨h.drift (.refl p.hub), rfl, rfl, rfl, fun _ hc ↦ hc, rfl⟩
    · cases ho
  | rule =>
    rw [Terminal.outside] at ho
    split at ho
    · cases ho
    · split at ho
      · obtain rfl := Option.some.inj ho
        exact ⟨h.drift (.refl p.hub), rfl, rfl, rfl, fun _ hc ↦ hc, rfl⟩
      · cases ho

/-- A step keeps it that hands only open sockets to the hub. -/
theorem Kept.step (h : Kept ttl r) (hs : (program ttl).step r e = some u)
    (htime : inTime r e = true) : Kept ttl u := by
  cases e with
  | spawn i a =>
    obtain ⟨hfree, rfl⟩ := Program.step_spawn hs
    have hstart : ∀ l, (program ttl).start a = l → l.socket = none ∧ l.client = none := by
      rintro l rfl
      cases a <;> exact ⟨rfl, rfl⟩
    have hold : ∀ {j l}, Function.update r.calls i (some ((program ttl).start a)) j = some l →
        l.socket ≠ none → r.calls j = some l := by
      intro j l hl hsocket
      obtain ⟨-, hl⟩ | ⟨-, hl⟩ := calls_update.mp hl
      · exact absurd (hstart l (Option.some.inj hl)).1 hsocket
      · exact hl
    refine ⟨h.tidy, ?_, ?_, ?_⟩
    · intro j l ws hl hws
      exact h.free j l ws (hold hl (by rw [hws]; exact Option.some_ne_none ws)) hws
    · intro j j' l l' ws hl hl' hws hws'
      exact h.apart j j' l l' ws (hold hl (by rw [hws]; exact Option.some_ne_none ws))
        (hold hl' (by rw [hws']; exact Option.some_ne_none ws)) hws hws'
    · intro c hc
      obtain hc | hc | ⟨j, l, hl, hlc⟩ := h.held c hc
      · exact .inl hc
      · exact .inr (.inl hc)
      · have hj : j ≠ i := by
          rintro rfl
          cases hfree.symm.trans hl
        exact .inr (.inr ⟨j, l, (Function.update_of_ne hj ..).trans hl, hlc⟩)
  | act i a =>
    obtain ⟨k, ⟨q, k'⟩, hk, hact, rfl⟩ := Program.step_act hs
    have hopen : ∀ ws ∈ k.joins, ws ∉ r.store.hub.closed := by
      intro ws hws
      rw [inTime, hk, Option.all_some, hws, Option.all_some] at htime
      exact of_decide_eq_true htime
    exact h.move hk hopen (move_of_act hact)
  | abort i => cases htime
  | env o =>
    obtain ⟨q, hq, rfl⟩ := Program.step_env hs
    obtain ⟨htidy, hsocket, hwired, hclient, hdown, hsessions⟩ := h.tidy.outside hq
    refine ⟨htidy, ?_, h.apart, ?_⟩
    · intro i k ws hk hws
      rw [hsocket, hwired]
      exact h.free i k ws hk hws
    · intro c hc
      rw [hclient] at hc
      rw [hsessions]
      exact (h.held c hc).imp_left (hdown c)

def Process.Closed (p : Process) (client : Client) : Prop :=
  client ∈ p.down ∨ ∃ id rec, p.clientOf id = some client ∧ p.hub.recs id = some rec ∧
    rec.ended = true

/-- A live session has an open socket, or a timer is pending that ends it. -/
def Hub.Attended (ttl : Nat) (s : Hub) : Prop :=
  ∀ id rec, s.Live id rec →
    (∃ ws ∈ rec.sockets, ws ∉ s.closed) ∨ ∃ timer, s.Awaited ttl id rec timer

/-- What no live session has, and no connection under way, has been closed. -/
structure Released (r : Pool Process Point) : Prop where
  clients : ∀ client, client < r.store.nextClient →
    (∀ i k, r.calls i = some k → k.client ≠ some client) →
    (∃ id rec, r.store.clientOf id = some client ∧ r.store.hub.Live id rec) ∨
      r.store.Closed client
  writers : ∀ id ∈ r.store.recorded, (∃ rec, r.store.hub.Live id rec) ∨
    (id, Effect.closeRecording) ∈ r.store.hub.effects

/-- **In every run that hands only open sockets to the hub, each live session is attended, and
what is not in a live session has been closed.** -/
theorem run_attended {users : Id → Option Account} {requests : Id → Option AccessRequest}
    (hr : Run (program ttl).step (fun r e _ ↦ inTime r e = true)
      (Program.idle Point { users, requests }) es r) :
    r.store.hub.Attended ttl ∧ Released r := by
  have hkept : Kept ttl r := by
    refine hr.invariant (I := Kept ttl) ⟨tidy_empty, ?_, ?_, ?_⟩
      fun _ _ _ h hs htime ↦ h.step hs htime
    · intro i k ws hk
      cases hk
    · intro i j k l ws hk
      cases hk
    · intro c hc
      exact absurd hc (Nat.not_lt_zero c)
  have htidy := hkept.tidy
  refine ⟨?_, ?_, ?_⟩
  · intro id rec hlive
    by_cases hnone : rec.sockets = []
    · exact .inr (awaited_of_watched htidy.sound (htidy.watched id rec hlive) hlive.made
        hlive.open_ hnone)
    · obtain ⟨ws, hws⟩ := List.exists_mem_of_ne_nil _ hnone
      exact .inl ⟨ws, hws, (htidy.open_ id rec hlive ws hws).1⟩
  · intro client hc hfree
    obtain hdown | ⟨id, hid⟩ | ⟨i, k, hk, hkc⟩ := hkept.held client hc
    · exact .inr (.inl hdown)
    · obtain ⟨rec, hrec⟩ := htidy.clients id client hid
      obtain hlive | hended := htidy.sound.live_or_ended hrec
      · exact .inl ⟨id, rec, hid, hlive⟩
      · exact .inr (.inr ⟨id, rec, hid, hrec, hended⟩)
    · exact absurd hkc (hfree i k hk)
  · intro id hid
    obtain ⟨rec, hlive, -⟩ | hdone := htidy.writers id hid
    · exact .inl ⟨rec, hlive⟩
    · exact .inr hdone

end

def oneUser (id : Id) : Option Account :=
  if id = "user" then some { orgId := "org", status := .active } else none

def quickConnect : List (Lib.Event Call Answer Outside) :=
  [.spawn 0 .handleConnection, .act 0 .done,
    .act 0 (.ticket { userId := "user", orgId := "org", ticket := some "ticket" }), .act 0 .done,
    .act 0 .done, .act 0 .done, .act 0 (.matched false), .act 0 (.connected true),
    .act 0 (.session "session"), .act 0 .done]

/-- The viewer leaves once the session is registered. -/
theorem run_attended_detached : ∃ r : Pool Process Point,
    (r.store.hub.Attended 900 ∧ Released r) ∧
      (r.store.hub.get "session").map Rec.sockets = some [] ∧ r.store.hub.timers.length = 1 := by
  have h : ∃ r : Pool Process Point, execIf (program 900).step inTime
      (Program.idle Point { users := oneUser })
      (quickConnect ++ [.act 0 (.opened true), .env (.close 0)]) = some r ∧
      (r.store.hub.get "session").map Rec.sockets = some [] ∧ r.store.hub.timers.length = 1 :=
    ⟨_, rfl, rfl, rfl⟩
  obtain ⟨r, hr, hrest⟩ := h
  exact ⟨r, run_attended (run_of_execIf hr), hrest⟩

/-- The viewer leaves as the recording writer is opened: the session is live, its only socket has
closed, and no timer is pending. -/
theorem shell_unattended : ∃ r : Pool Process Point,
    exec (program 900).step (Program.idle Point { users := oneUser })
      (quickConnect ++ [.env (.close 0), .act 0 (.opened true)]) = some r ∧
    (∃ rec, r.store.hub.Live "session" rec ∧ ∀ ws ∈ rec.sockets, ws ∈ r.store.hub.closed) ∧
    r.store.hub.timers = [] ∧ ¬ r.store.hub.Attended 900 := by
  have h : ∃ (r : Pool Process Point) (rec : Rec),
      exec (program 900).step (Program.idle Point { users := oneUser })
        (quickConnect ++ [.env (.close 0), .act 0 (.opened true)]) = some r ∧
      r.store.hub.recs "session" = some rec ∧ r.store.hub.sessions = ["session"] ∧
      rec.ended = false ∧ rec.sockets = [0] ∧ r.store.hub.closed = [0] ∧
      r.store.hub.timers = [] := ⟨_, _, rfl, rfl, rfl, rfl, rfl, rfl, rfl⟩
  obtain ⟨r, rec, hr, hrec, hsessions, hopen, hsockets, hclosed, htimers⟩ := h
  have hlive : r.store.hub.Live "session" rec :=
    ⟨hrec, by rw [hsessions]; exact List.mem_singleton_self _, hopen⟩
  have hgone : ∀ ws ∈ rec.sockets, ws ∈ r.store.hub.closed := by
    rw [hsockets, hclosed]
    exact fun _ hws ↦ hws
  refine ⟨r, hr, ⟨rec, hlive, hgone⟩, htimers, fun hattended ↦ ?_⟩
  obtain ⟨ws, hws, hwsOpen⟩ | ⟨timer, hawaited⟩ := hattended "session" rec hlive
  · exact hwsOpen (hgone ws hws)
  · have hpending := hawaited.pending
    rw [htimers] at hpending
    cases hpending

end Shellius.Terminal
