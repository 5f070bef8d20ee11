import Shellius.Terminal.Life

/-!
# Sessions end once

Many things end a session: its stream or its client closes or fails, a user closes it, an
administrator terminates it, the access behind it expires, its user is suspended, nobody has
been attached for too long.  Whatever comes first lets `end` in, and from then on the session
is found by no lookup, so that the others find nothing to end.

A session that nobody is attached to has a timer that ends it, unless nobody has been
attached to it at all.
-/

namespace Shellius.Terminal

open Lib

variable {ttl : Nat} {s t u : Hub} {es fs : List Event} {id : Id} {rec : Rec}

theorem sound_empty : ({} : Hub).Sound ttl := fun _ ↦ ⟨rfl, rfl, rfl, rfl⟩

theorem Hub.Sound.run (h : s.Sound ttl) (hr : Run (step ttl) free s es t) :
    t.Sound ttl ∧ Hub.Follows ttl s t := by
  refine hr.invariant (I := fun t ↦ t.Sound ttl ∧ Hub.Follows ttl s t) ⟨h, .refl s⟩ ?_
  rintro t e u ⟨ht, hst⟩ hstep -
  have htu := Hub.follows_step ht hstep
  exact ⟨ht.follows htu, hst.trans htu⟩

/-! ## What a life says about the hub -/

/-- `end` has been let in for a session. -/
def Hub.Ended (s : Hub) (id : Id) : Prop := ∃ rec, s.recs id = some rec ∧ rec.ended = true

theorem gone_life : (s.life id).Gone ↔ s.Ended id := by
  constructor
  · rintro ⟨c, hc, hended⟩
    obtain ⟨rec, hrec, rfl⟩ := Option.map_eq_some_iff.mp hc
    exact ⟨rec, hrec, hended⟩
  · rintro ⟨rec, hrec, hended⟩
    exact ⟨rec.core, by rw [Hub.life, hrec]; rfl, hended⟩

theorem Hub.Ended.run (h : s.Ended id) (hs : s.Sound ttl) (hr : Run (step ttl) free s fs t) :
    t.Ended id :=
  gone_life.mp (Life.kept (fun _ _ ↦ Life.Gone.step) (gone_life.mpr h) ((hs.run hr).2 id))

/-- No lookup finds a session, it takes no socket and it has none. -/
structure Hub.Unknown (s : Hub) (id : Id) : Prop where
  get : s.get id = none
  has : s.has id = false
  list : ∀ owner, id ∉ s.list owner
  owned : ∀ owner, s.requireOwned id owner = .error ⟨"SESSION_NOT_FOUND", 4404, "Session not found"⟩
  addSocket : ∀ ws, s.addSocket id ws = s
  attach : ∀ ws owner, s.attach id ws owner = .error ⟨"SESSION_NOT_FOUND", 4404, "Session not found"⟩
  sockets : ∀ rec, s.recs id = some rec → rec.sockets = []

theorem Hub.Ended.unknown (h : s.Ended id) (hs : s.Sound ttl) : s.Unknown id := by
  obtain ⟨rec, hrec, hended⟩ := h
  have hmade := hs.made hrec
  have hlisted : id ∉ s.sessions := by
    have hl : decide (id ∈ s.sessions) = !rec.ended := hmade.listed
    rw [hended] at hl
    exact of_decide_eq_false hl
  have hget : s.get id = none := if_neg hlisted
  have howned : ∀ owner, s.requireOwned id owner =
      .error ⟨"SESSION_NOT_FOUND", 4404, "Session not found"⟩ := by
    intro owner
    unfold Hub.requireOwned
    rw [hget]
  constructor
  · exact hget
  · rw [Hub.has, hget]
    rfl
  · exact fun owner hmem ↦ hlisted (List.mem_of_mem_filter hmem)
  · exact howned
  · intro ws
    unfold Hub.addSocket
    rw [hget]
  · intro ws owner
    unfold Hub.attach
    rw [howned owner]
  · rintro rec' hrec'
    obtain rfl := Option.some.inj (hrec.symm.trans hrec')
    exact (hmade.gone hended).1

/-- A timer is pending that ends the session. -/
structure Hub.Awaited (ttl : Nat) (s : Hub) (id : Id) (rec : Rec) (timer : Timer) : Prop where
  held : rec.detachTimer = some timer
  pending : timer ∈ s.timers
  own : timer.sessionId = id
  due : ∃ d ∈ rec.detachedAt, timer.due = d + ttl * 1000
  ends : ∀ t, step ttl s (.fire timer) = some t → t.Ended id

theorem watched_addSocket (hs : s.has id = true) (ws : Socket) : ((s.addSocket id ws).life id).Watched := by
  obtain ⟨rec, hget, hopen⟩ := (Option.any_eq_true _ _).mp hs
  obtain ⟨hlisted, hrec⟩ := Hub.get_eq_some.mp hget
  obtain ⟨hdead, -⟩ | ⟨rec', -, he⟩ := Hub.addSocket_cases s id ws
  · exact absurd ⟨hrec, hlisted, by simpa using hopen⟩ (hdead rec)
  · rw [he]
    refine ⟨_, Hub.core_update_self .., fun _ ↦ .inl ?_⟩
    exact List.ne_nil_of_mem (Life.mem_addTo ws rec'.sockets)

theorem awaited_of_watched (hs : s.Sound ttl) (hw : (s.life id).Watched) (hrec : s.recs id = some rec)
    (hopen : rec.ended = false) (hsockets : rec.sockets = []) :
    ∃ timer, s.Awaited ttl id rec timer := by
  have hmade := hs.made hrec
  obtain ⟨c, hc, hwatch⟩ := hw
  obtain rfl : rec.core = c := by
    rw [Hub.life, hrec] at hc
    exact Option.some.inj hc
  obtain ⟨timer, htimer⟩ := Option.ne_none_iff_exists'.mp
    ((hwatch hopen).resolve_left fun hne ↦ hne hsockets)
  have hheld : rec.detachTimer = some timer := htimer
  have hown := hmade.own timer hheld
  refine ⟨timer, hheld, ?_, hown, hmade.due timer hheld, ?_⟩
  · have hmem : timer ∈ (s.life id).timers := by
      rw [hmade.timers, htimer]
      exact List.mem_singleton_self timer
    exact List.mem_of_mem_filter hmem
  · intro t ht
    rw [step] at ht
    split at ht
    · obtain rfl := Option.some.inj ht
      have hlisted : decide (id ∈ s.sessions) = !rec.ended := hmade.listed
      rw [hopen] at hlisted
      have hlive : s.Live id rec := ⟨hrec, of_decide_eq_true hlisted, hopen⟩
      unfold Hub.fire
      rw [hown]
      obtain ⟨hdead, -⟩ | ⟨rec', -, he⟩ := Hub.endSession_cases
        { s with timers := s.timers.filter (· ≠ timer) } id "detached_timeout" []
      · exact absurd ⟨hlive.made, hlive.listed, hlive.open_⟩ (hdead rec)
      · rw [he]
        exact ⟨_, Function.update_self .., rfl⟩
    · cases ht

theorem nodup_pairs {α β γ : Type*} [DecidableEq α] {l : List (α × β)} {g : β → γ}
    (h : ∀ a, ((l.filter fun e ↦ e.1 = a).map fun e ↦ g e.2).Nodup) :
    (l.map fun e ↦ (e.1, g e.2)).Nodup := by
  induction l with
  | nil => exact List.nodup_nil
  | cons e l ih =>
    rw [List.map_cons, List.nodup_cons]
    constructor
    · intro hmem
      obtain ⟨e', he', heq⟩ := List.mem_map.mp hmem
      obtain ⟨hfst, hsnd⟩ := Prod.mk.inj heq
      have hone := h e.1
      rw [List.filter_cons_of_pos (by simp), List.map_cons, List.nodup_cons] at hone
      exact hone.1 (List.mem_map.mpr ⟨e', List.mem_filter.mpr ⟨he', decide_eq_true hfst⟩, hsnd⟩)
    · refine ih fun a ↦ (h a).sublist ?_
      exact ((List.sublist_cons_self e l).filter _).map _

theorem Hub.Sound.effects_nodup (h : s.Sound ttl) : (s.effects.map fun e ↦ (e.1, e.2.kind)).Nodup := by
  refine nodup_pairs (g := Effect.kind) fun id ↦ ?_
  have hsound := h id
  cases hcore : (s.life id).core with
  | none =>
    rw [Life.Sound, hcore] at hsound
    show (s.life id).effects.Nodup
    rw [hsound.2.2.2]
    exact List.nodup_nil
  | some c => exact (List.nodup_append.mp (hsound.made hcore).once).1

/-- **In every run of the hub, what the end of a session does is done once at most; an ended
session is unknown for ever; and a session to which a socket has been added is ended by a
pending timer whenever it is live and has no sockets.** -/
theorem run_ends_once (hr : Run (step ttl) free ({} : Hub) es s) :
    (s.effects.map fun e ↦ (e.1, e.2.kind)).Nodup ∧
    (∀ id fs t, s.Ended id → Run (step ttl) free s fs t → t.Ended id ∧ t.Unknown id) ∧
    ∀ id ws fs t u rec, s.has id = true → step ttl s (.addSocket id ws) = some t →
      Run (step ttl) free t fs u → u.recs id = some rec → rec.ended = false → rec.sockets = [] →
      ∃ timer, u.Awaited ttl id rec timer := by
  have hs : s.Sound ttl := (sound_empty.run hr).1
  refine ⟨hs.effects_nodup, ?_, ?_⟩
  · intro id fs t hended ht
    have hlater := hended.run hs ht
    exact ⟨hlater, hlater.unknown (hs.run ht).1⟩
  · intro id ws fs t u rec hlive ht hu hrec hopen hsockets
    have htsound : t.Sound ttl := hs.follows (Hub.follows_step hs ht)
    obtain ⟨husound, hfollows⟩ := htsound.run hu
    obtain rfl := Option.some.inj ht
    have hwatched := Life.kept (fun _ _ ↦ Life.Watched.step) (watched_addSocket hlive ws) (hfollows id)
    exact awaited_of_watched husound hwatched hrec hopen hsockets

def abandoned : List Event :=
  [.create "session" ⟨"user", "org"⟩ true none none, .addSocket "session" 7, .data "session" [104, 105],
    .detach "session" 7, .tick 900000, .fire ⟨0, 900000, "session"⟩, .endSession "session" "exit" [],
    .resume 0 true, .endAllForUser "user" none "suspended", .resume 0 true, .resume 0 true]

theorem run_ends_once_abandoned : ∃ s, Run (step 900) free ({} : Hub) abandoned s ∧
    s.effects.map (fun e ↦ (e.1, e.2.kind)) =
      [("session", .closeRecording), ("session", .saveRecordingKey), ("session", .closeRow),
        ("session", .audit)] ∧ s.Unknown "session" := by
  have h : exec (step 900) ({} : Hub) abandoned = some _ := rfl
  have hr := run_of_exec h
  refine ⟨_, hr, rfl, ?_⟩
  exact ((run_ends_once hr).2.1 "session" [] _ ⟨_, rfl, rfl⟩ .nil).2

end Shellius.Terminal
