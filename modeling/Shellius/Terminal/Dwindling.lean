import Shellius.Terminal.Ending

/-!
# What the hub does on its own

A connection registers a session with the hub and sockets with a session, and takes a socket
away when it closes.  Whatever else the hub does, the live sessions dwindle: each that is
live was live before, with the same owner, the same access request and the same sockets, and a
socket is closed only as its session ends.  A socket that is detached is one socket less.  The
recording of a session is being written until it is closed.
-/

namespace Shellius.Terminal

open Lib

/-- What a session keeps as long as it is live and no socket comes or goes. -/
structure Badge where
  owner : Owner
  accessRequestId : Option Id
  sockets : List Socket

def Rec.badge (rec : Rec) : Badge := ⟨⟨rec.userId, rec.orgId⟩, rec.accessRequestId, rec.sockets⟩

namespace Hub

variable {ttl : Nat} {s t u : Hub} {id j : Id} {rec rec' : Rec} {ws : Socket}

/-- The live sessions have dwindled. -/
structure Dwindles (s t : Hub) : Prop where
  live : ∀ {id rec'}, t.Live id rec' → ∃ rec, s.Live id rec ∧ rec'.badge = rec.badge
  closed : ∀ {ws}, ws ∈ t.closed → ws ∈ s.closed ∨
    ∃ id rec, s.Live id rec ∧ ws ∈ rec.sockets ∧ ∀ rec', ¬ t.Live id rec'

/-- The recording of a session is being written, or has been closed. -/
def Writes (s : Hub) (id : Id) : Prop :=
  (∃ rec, s.Live id rec ∧ rec.recordingWriter.isSome = true) ∨ (id, Effect.closeRecording) ∈ s.effects

/-- No recording has been lost. -/
def KeepsWriters (s t : Hub) : Prop := ∀ id, s.Writes id → t.Writes id

/-! ## The live sessions -/

theorem Dwindles.refl (s : Hub) : Dwindles s s := ⟨fun h ↦ ⟨_, h, rfl⟩, .inl⟩

theorem Dwindles.trans (h : Dwindles s t) (h' : Dwindles t u) : Dwindles s u where
  live hlive := by
    obtain ⟨rec', hlive', hbadge'⟩ := h'.live hlive
    obtain ⟨rec, hlive, hbadge⟩ := h.live hlive'
    exact ⟨rec, hlive, hbadge'.trans hbadge⟩
  closed hws := by
    obtain hws | ⟨id, rec', hlive', hmem, hdead⟩ := h'.closed hws
    · obtain hws | ⟨id, rec, hlive, hmem, hdead⟩ := h.closed hws
      · exact .inl hws
      · refine .inr ⟨id, rec, hlive, hmem, fun rec'' hlive'' ↦ ?_⟩
        obtain ⟨rec', hlive', -⟩ := h'.live hlive''
        exact hdead rec' hlive'
    · obtain ⟨rec, hlive, hbadge⟩ := h.live hlive'
      have hsockets : rec'.sockets = rec.sockets := congrArg Badge.sockets hbadge
      exact .inr ⟨id, rec, hlive, hsockets ▸ hmem, hdead⟩

theorem dwindles_assign {f : Rec → Rec} (hbadge : ∀ rec, (f rec).badge = rec.badge)
    (hended : ∀ rec, (f rec).ended = rec.ended) (j : Id) (hrecs : t.recs = (s.assign j f).recs)
    (hsessions : t.sessions = s.sessions) (hclosed : t.closed = s.closed) : Dwindles s t where
  live {id rec'} hlive := by
    have hmade : (s.assign j f).recs id = some rec' := hrecs ▸ hlive.made
    unfold assign at hmade
    dsimp only at hmade
    by_cases hid : id = j
    · subst hid
      rw [Function.update_self] at hmade
      obtain ⟨rec, hrec, rfl⟩ := Option.map_eq_some_iff.mp hmade
      exact ⟨rec, ⟨hrec, hsessions ▸ hlive.listed, (hended rec).symm.trans hlive.open_⟩, hbadge rec⟩
    · rw [Function.update_of_ne hid] at hmade
      exact ⟨rec', ⟨hmade, hsessions ▸ hlive.listed, hlive.open_⟩, rfl⟩
  closed hws := .inl (hclosed ▸ hws)

theorem dwindles_of_eq (hrecs : t.recs = s.recs) (hsessions : t.sessions = s.sessions)
    (hclosed : t.closed = s.closed) : Dwindles s t where
  live hlive := ⟨_, ⟨hrecs ▸ hlive.made, hsessions ▸ hlive.listed, hlive.open_⟩, rfl⟩
  closed hws := .inl (hclosed ▸ hws)

theorem dwindles_endSession (s : Hub) (j : Id) (reason : String) (extra : List (String × String)) :
    Dwindles s (s.endSession j reason extra) := by
  obtain ⟨-, he⟩ | ⟨rec, hlive, he⟩ := endSession_cases s j reason extra
  · rw [he]
    exact .refl s
  · rw [he]
    constructor
    · intro id rec' hlive'
      have hid : id ≠ j := of_decide_eq_true (List.mem_filter.mp hlive'.listed).2
      have hmade : s.recs id = some rec' := (Function.update_of_ne hid ..).symm.trans hlive'.made
      exact ⟨rec', ⟨hmade, List.mem_of_mem_filter hlive'.listed, hlive'.open_⟩, rfl⟩
    · intro ws hws
      obtain hws | hws := List.mem_append.mp hws
      · exact .inl hws
      · refine .inr ⟨j, rec, hlive, hws, fun rec' hlive' ↦ ?_⟩
        exact of_decide_eq_true (List.mem_filter.mp hlive'.listed).2 rfl

theorem chained_dwindles : Chained Dwindles where
  refl := .refl
  trans := .trans
  endSession := dwindles_endSession
  refresh _ j expiresAt :=
    dwindles_assign (f := fun rec ↦ { rec with accessRequestExpiresAt := some expiresAt })
      (fun _ ↦ rfl) (fun _ ↦ rfl) j rfl rfl rfl
  checks _ _ := dwindles_of_eq rfl rfl rfl

theorem dwindles_onData (s : Hub) (j : Id) (rec : Rec) (chunk : Chunk) :
    Dwindles s (s.onData j rec chunk) :=
  dwindles_assign (f := fun rec ↦
    { rec with
      lastActivityAt := s.now
      buffer := rec.buffer.push chunk
      recordingWriter := rec.recordingWriter.map (· ++ [chunk]) })
    (fun _ ↦ rfl) (fun _ ↦ rfl) j rfl rfl rfl

theorem dwindles_resume {i : Nat} {ok : Bool} (ht : s.resume i ok = some t) : Dwindles s t := by
  unfold resume at ht
  split at ht
  · cases ht
  · rename_i e he
    have hreleased : ∀ {u : Hub}, u.recs = (s.assign e.sessionId fun rec ↦
        { rec with recordingWriter := none }).recs → u.sessions = s.sessions →
        u.closed = s.closed → Dwindles s u :=
      dwindles_assign (f := fun rec ↦ { rec with recordingWriter := none }) (fun _ ↦ rfl)
        (fun _ ↦ rfl) e.sessionId
    dsimp only at ht
    split at ht
    · split at ht
      · obtain rfl := Option.some.inj ht
        exact dwindles_of_eq rfl rfl rfl
      · obtain rfl := Option.some.inj ht
        exact hreleased rfl rfl rfl
    · obtain rfl := Option.some.inj ht
      exact hreleased rfl rfl rfl
    · obtain rfl := Option.some.inj ht
      exact dwindles_of_eq rfl rfl rfl

theorem dwindles_fire (s : Hub) (timer : Timer) : Dwindles s (s.fire timer) := by
  have hstart : Dwindles s { s with timers := s.timers.filter (· ≠ timer) } :=
    dwindles_of_eq rfl rfl rfl
  exact hstart.trans (dwindles_endSession _ timer.sessionId _ _)

/-! ## Sockets that go -/

/-- The live sessions have lost sockets, if anything. -/
structure Sheds (s t : Hub) : Prop where
  live : ∀ {id rec'}, t.Live id rec' → ∃ rec, s.Live id rec ∧
    rec'.badge.owner = rec.badge.owner ∧ rec'.accessRequestId = rec.accessRequestId ∧
    rec'.sockets ⊆ rec.sockets
  closed : t.closed = s.closed

theorem Sheds.refl (s : Hub) : Sheds s s :=
  ⟨fun h ↦ ⟨_, h, rfl, rfl, List.Subset.refl _⟩, rfl⟩

theorem Sheds.trans (h : Sheds s t) (h' : Sheds t u) : Sheds s u where
  live hlive := by
    obtain ⟨rec', hlive', howner', har', hsub'⟩ := h'.live hlive
    obtain ⟨rec, hlive, howner, har, hsub⟩ := h.live hlive'
    exact ⟨rec, hlive, howner'.trans howner, har'.trans har, fun ws hws ↦ hsub (hsub' hws)⟩
  closed := h'.closed.trans h.closed

theorem sheds_update (hrecs : t.recs = Function.update s.recs j (some rec'))
    (hsessions : t.sessions = s.sessions) (hclosed : t.closed = s.closed)
    (hrec : s.recs j = some rec) (howner : rec'.badge.owner = rec.badge.owner)
    (har : rec'.accessRequestId = rec.accessRequestId) (hended : rec'.ended = rec.ended)
    (hsub : rec'.sockets ⊆ rec.sockets) : Sheds s t where
  live {id r} hlive := by
    have hmade := hlive.made
    rw [hrecs] at hmade
    by_cases hid : id = j
    · subst hid
      rw [Function.update_self] at hmade
      cases hmade
      exact ⟨rec, ⟨hrec, hsessions ▸ hlive.listed, hended ▸ hlive.open_⟩, howner, har, hsub⟩
    · rw [Function.update_of_ne hid] at hmade
      exact ⟨r, ⟨hmade, hsessions ▸ hlive.listed, hlive.open_⟩, rfl, rfl, List.Subset.refl _⟩
  closed := hclosed

theorem sheds_detach (s : Hub) (ttl : Nat) (j : Id) (ws : Socket) : Sheds s (s.detach ttl j ws) := by
  obtain ⟨-, he⟩ | ⟨rec, hrec, -, -, ⟨-, he⟩ | ⟨-, -, he⟩⟩ := detach_cases s ttl j ws
  · rw [he]
    exact .refl s
  · rw [he]
    exact sheds_update rfl rfl rfl hrec rfl rfl rfl List.erase_subset
  · rw [he]
    exact sheds_update rfl rfl rfl hrec rfl rfl rfl (List.nil_subset _)

/-! ## The recordings -/

theorem KeepsWriters.refl (s : Hub) : KeepsWriters s s := fun _ h ↦ h

theorem KeepsWriters.trans (h : KeepsWriters s t) (h' : KeepsWriters t u) : KeepsWriters s u :=
  fun id hid ↦ h' id (h id hid)

theorem keepsWriters_assign {f : Rec → Rec} (hended : ∀ rec, (f rec).ended = rec.ended)
    (hwriter : ∀ rec, rec.recordingWriter.isSome = true → (f rec).recordingWriter.isSome = true)
    (j : Id) (hrecs : t.recs = (s.assign j f).recs) (hsessions : t.sessions = s.sessions)
    (heffects : t.effects = s.effects) : KeepsWriters s t := by
  rintro id (⟨rec, hlive, hsome⟩ | hdone)
  · left
    by_cases hid : id = j
    · subst hid
      have hmade : t.recs id = some (f rec) := by
        rw [hrecs, assign_eq hlive.made]
        exact Function.update_self ..
      exact ⟨f rec, ⟨hmade, hsessions ▸ hlive.listed, (hended rec).trans hlive.open_⟩, hwriter rec hsome⟩
    · have hmade : t.recs id = some rec := by
        rw [hrecs]
        exact (Function.update_of_ne hid ..).trans hlive.made
      exact ⟨rec, ⟨hmade, hsessions ▸ hlive.listed, hlive.open_⟩, hsome⟩
  · exact .inr (heffects ▸ hdone)

theorem keepsWriters_of_eq (hrecs : t.recs = s.recs) (hsessions : t.sessions = s.sessions)
    (heffects : ∀ e ∈ s.effects, e ∈ t.effects) : KeepsWriters s t := by
  rintro id (⟨rec, hlive, hsome⟩ | hdone)
  · exact .inl ⟨rec, ⟨hrecs ▸ hlive.made, hsessions ▸ hlive.listed, hlive.open_⟩, hsome⟩
  · exact .inr (heffects _ hdone)

theorem keepsWriters_endSession (s : Hub) (j : Id) (reason : String)
    (extra : List (String × String)) : KeepsWriters s (s.endSession j reason extra) := by
  obtain ⟨-, he⟩ | ⟨rec, hlive, he⟩ := endSession_cases s j reason extra
  · rw [he]
    exact .refl s
  · rw [he]
    rintro id (⟨rec', hlive', hsome⟩ | hdone)
    · by_cases hid : id = j
      · -- the writer is closed as the session ends
        subst hid
        obtain rfl := Option.some.inj (hlive.made.symm.trans hlive'.made)
        refine .inr (List.mem_append_right _ ?_)
        rw [firstOf, if_pos hsome]
        exact List.mem_singleton_self _
      · refine .inl ⟨rec', ⟨(Function.update_of_ne hid ..).trans hlive'.made, ?_, hlive'.open_⟩, hsome⟩
        exact List.mem_filter.mpr ⟨hlive'.listed, decide_eq_true hid⟩
    · exact .inr (List.mem_append_left _ hdone)

theorem chained_keepsWriters : Chained KeepsWriters where
  refl := .refl
  trans := .trans
  endSession := keepsWriters_endSession
  refresh _ j expiresAt :=
    keepsWriters_assign (f := fun rec ↦ { rec with accessRequestExpiresAt := some expiresAt })
      (fun _ ↦ rfl) (fun _ h ↦ h) j rfl rfl rfl
  checks _ _ := keepsWriters_of_eq rfl rfl fun _ h ↦ h

theorem keepsWriters_onData (s : Hub) (j : Id) (rec : Rec) (chunk : Chunk) :
    KeepsWriters s (s.onData j rec chunk) :=
  keepsWriters_assign (f := fun rec ↦
    { rec with
      lastActivityAt := s.now
      buffer := rec.buffer.push chunk
      recordingWriter := rec.recordingWriter.map (· ++ [chunk]) })
    (fun _ ↦ rfl) (fun _ h ↦ by simpa using h) j rfl rfl rfl

/-- What a call of `end` still does is about a session that has ended. -/
theorem keepsWriters_resume (hs : s.Sound ttl) {i : Nat} {ok : Bool}
    (ht : s.resume i ok = some t) : KeepsWriters s t := by
  unfold resume at ht
  split at ht
  · cases ht
  · rename_i e he
    have hdead : ∀ rec, ¬ s.Live e.sessionId rec := by
      intro rec hlive
      have hnil := ((hs.made hlive.made).open_ hlive.open_).1
      have hmem : e.phase ∈ (s.life e.sessionId).ending :=
        List.mem_map.mpr ⟨e, List.mem_filter.mpr ⟨List.mem_of_getElem? he, decide_eq_true rfl⟩, rfl⟩
      rw [hnil] at hmem
      cases hmem
    have hreleased : ∀ {u : Hub}, u.recs = (s.assign e.sessionId fun rec ↦
        { rec with recordingWriter := none }).recs → u.sessions = s.sessions →
        (∀ x ∈ s.effects, x ∈ u.effects) → KeepsWriters s u := by
      rintro u hrecs hsessions heffects id (⟨rec, hlive, hsome⟩ | hdone)
      · have hid : id ≠ e.sessionId := by
          rintro rfl
          exact hdead rec hlive
        refine .inl ⟨rec, ⟨?_, hsessions ▸ hlive.listed, hlive.open_⟩, hsome⟩
        rw [hrecs]
        exact (Function.update_of_ne hid ..).trans hlive.made
      · exact .inr (heffects _ hdone)
    have hmore : ∀ {l : List (Id × Effect)}, ∀ x ∈ s.effects, x ∈ s.effects ++ l :=
      fun x hx ↦ List.mem_append_left _ hx
    dsimp only at ht
    split at ht
    · split at ht
      · obtain rfl := Option.some.inj ht
        exact keepsWriters_of_eq rfl rfl fun _ h ↦ h
      · obtain rfl := Option.some.inj ht
        exact hreleased rfl rfl fun _ h ↦ h
    · obtain rfl := Option.some.inj ht
      exact hreleased rfl rfl hmore
    · obtain rfl := Option.some.inj ht
      exact keepsWriters_of_eq rfl rfl fun x hx ↦
        List.mem_append_left _ (List.mem_append_left _ hx)

theorem keepsWriters_fire (s : Hub) (timer : Timer) : KeepsWriters s (s.fire timer) := by
  have hstart : KeepsWriters s { s with timers := s.timers.filter (· ≠ timer) } :=
    keepsWriters_of_eq rfl rfl fun _ h ↦ h
  exact hstart.trans (keepsWriters_endSession _ timer.sessionId _ _)

end Hub

end Shellius.Terminal
