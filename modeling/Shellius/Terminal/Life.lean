import Mathlib.Data.List.Count
import Mathlib.Logic.Relation
import Shellius.Terminal.Hub

/-!
# The life of a session

What the hub has about one session is a `Life`: the record, whether the map lists it, the
timers that are pending for it, and the calls of `end` that were let in with what they have
done.  A life goes on by few steps, and each is about this session only; whatever the hub
does takes every life along such steps (`Hub.follows_step`).  So what all steps of a life
keep holds of every session, whatever happens to the others in between.
-/

namespace Shellius.Terminal

open Lib Relation

/-! ## Lives -/

inductive EffectKind where
  | closeRecording
  | saveRecordingKey
  | closeRow
  | audit
deriving DecidableEq

def Effect.kind : Effect → EffectKind
  | .closeRecording => .closeRecording
  | .saveRecordingKey => .saveRecordingKey
  | .closeRow .. => .closeRow
  | .audit _ => .audit

/-- What the life of a session has of its record. -/
structure Core where
  sockets : List Socket := []
  ended : Bool := false
  detachedAt : Option Millis := none
  detachTimer : Option Timer := none

def Rec.core (rec : Rec) : Core := ⟨rec.sockets, rec.ended, rec.detachedAt, rec.detachTimer⟩

@[ext]
structure Life where
  core : Option Core
  listed : Bool
  timers : List Timer
  ending : List Phase
  effects : List EffectKind

/-- What the hub has about a session. -/
def Hub.life (s : Hub) (id : Id) : Life where
  core := (s.recs id).map Rec.core
  listed := id ∈ s.sessions
  timers := s.timers.filter fun timer ↦ timer.sessionId = id
  ending := (s.ending.filter fun e ↦ e.sessionId = id).map fun e ↦ e.phase
  effects := (s.effects.filter fun e ↦ e.1 = id).map fun e ↦ e.2.kind

/-- What a call of `end` may still do. -/
def Phase.left : Phase → List EffectKind
  | .upload | .recordingKey => [.saveRecordingKey, .closeRow, .audit]
  | .row => [.closeRow, .audit]

/-- How a call of `end` goes on, and what it does. -/
inductive Phase.Next : Phase → Option Phase → List EffectKind → Prop where
  | uploaded : Next .upload (some .recordingKey) []
  | discarded : Next .upload (some .row) []
  | stored : Next .recordingKey (some .row) [.saveRecordingKey]
  | unstored : Next .recordingKey (some .row) []
  | written : Next .row none [.closeRow, .audit]
  | unwritten : Next .row none [.audit]

/-- How a call of `end` begins, and what it does up to its first `await`. -/
inductive Phase.First : Phase → List EffectKind → Prop where
  | recorded : First .upload [.closeRecording]
  | unrecorded : First .row []

namespace Life

open Phase (left)

/-- The pending timers without the one of the record. -/
def cleared (l : Life) (c : Core) : List Timer := l.timers.filter fun timer ↦ some timer ≠ c.detachTimer

/-- The life after `end` has been let in. -/
def finish (l : Life) (c : Core) (p : Phase) (ks : List EffectKind) : Life where
  core := some { c with sockets := [], ended := true, detachTimer := none }
  listed := false
  timers := l.cleared c
  ending := l.ending ++ [p]
  effects := l.effects ++ ks

/-- A session that lookups find. -/
def Live (l : Life) (c : Core) : Prop := l.core = some c ∧ l.listed = true ∧ c.ended = false

inductive Step (ttl : Nat) (id : Id) : Life → Life → Prop where
  | create {l : Life} : l.core = none → Step ttl id l { l with core := some {}, listed := true }
  | join {l : Life} {c : Core} (ws : Socket) : l.Live c → Step ttl id l
      { l with
        core := some { c with
          sockets := Hub.addTo ws c.sockets, detachedAt := none, detachTimer := none }
        timers := l.cleared c }
  | leave {l : Life} {c : Core} (ws : Socket) : l.core = some c →
      c.sockets.erase ws ≠ [] ∨ c.ended = true →
      Step ttl id l { l with core := some { c with sockets := c.sockets.erase ws } }
  | last {l : Life} {c : Core} (now : Millis) (timer : Timer) : l.Live c →
      timer.sessionId = id → timer.due = now + ttl * 1000 → Step ttl id l
        { l with
          core := some { c with sockets := [], detachedAt := some now, detachTimer := some timer }
          timers := l.cleared c ++ [timer] }
  | finish {l : Life} {c : Core} {p : Phase} {ks : List EffectKind} : l.Live c → p.First ks →
      Step ttl id l (l.finish c p ks)
  | fired {l : Life} {c : Core} {p : Phase} {ks : List EffectKind} (timer : Timer) : l.Live c →
      p.First ks →
      Step ttl id l ({ l with timers := l.timers.filter (· ≠ timer) }.finish c p ks)
  | lapsed {l : Life} (timer : Timer) : (∀ c, ¬ l.Live c) →
      Step ttl id l { l with timers := l.timers.filter (· ≠ timer) }
  | resumed {l : Life} {a b : List Phase} {p : Phase} {p' : Option Phase} {ks : List EffectKind} :
      l.ending = a ++ p :: b → p.Next p' ks →
      Step ttl id l { l with ending := a ++ p'.toList ++ b, effects := l.effects ++ ks }

variable {ttl : Nat} {id : Id} {l m n : Life} {c : Core}

theorem Step.of_eq (h : Step ttl id l m) (hn : n = m) : Step ttl id l n := hn ▸ h

theorem kept {P : Life → Prop} (hP : ∀ l m, P l → Step ttl id l m → P m) (h : P l)
    (hs : ReflTransGen (Step ttl id) l m) : P m := by
  induction hs with
  | refl => exact h
  | tail _ hstep ih => exact hP _ _ ih hstep

/-! ## What a life keeps -/

/-- A life of a session that has a record. -/
structure Made (ttl : Nat) (id : Id) (l : Life) (c : Core) : Prop where
  listed : l.listed = !c.ended
  sockets : c.sockets.Nodup
  /-- The timer of the record is the one that is pending. -/
  timers : l.timers = c.detachTimer.toList
  own : ∀ timer ∈ c.detachTimer, timer.sessionId = id
  due : ∀ timer ∈ c.detachTimer, ∃ d ∈ c.detachedAt, timer.due = d + ttl * 1000
  open_ : c.ended = false → l.ending = [] ∧ l.effects = []
  gone : c.ended = true → c.sockets = [] ∧ c.detachTimer = none
  /-- What has been done and what may still be done is done once at most. -/
  once : (l.effects ++ l.ending.flatMap Phase.left).Nodup

def Sound (ttl : Nat) (id : Id) (l : Life) : Prop :=
  match l.core with
  | none => l.listed = false ∧ l.timers = [] ∧ l.ending = [] ∧ l.effects = []
  | some c => l.Made ttl id c

theorem Sound.made (h : l.Sound ttl id) (hc : l.core = some c) : l.Made ttl id c := by
  rw [Sound, hc] at h
  exact h

theorem sound_of_made (hc : l.core = some c) (h : l.Made ttl id c) : l.Sound ttl id := by
  rw [Sound, hc]
  exact h

theorem Made.cleared (h : l.Made ttl id c) : l.cleared c = [] := by
  rw [Life.cleared, h.timers]
  cases c.detachTimer <;> simp

theorem nodup_addTo {ws : Socket} {sockets : List Socket} (h : sockets.Nodup) :
    (Hub.addTo ws sockets).Nodup := by
  unfold Hub.addTo
  split
  · exact h
  · rename_i hws
    exact List.nodup_append.mpr ⟨h, List.nodup_singleton ws, by
      rintro a ha b hb rfl
      exact hws (List.mem_singleton.mp hb ▸ ha)⟩

theorem mem_addTo (ws : Socket) (sockets : List Socket) : ws ∈ Hub.addTo ws sockets := by
  unfold Hub.addTo
  split <;> simp [*]

theorem Made.finish (h : l.Made ttl id c) (hc : c.ended = false) {p : Phase}
    {ks : List EffectKind} (hp : p.First ks) :
    (l.finish c p ks).Made ttl id { c with sockets := [], ended := true, detachTimer := none } := by
  obtain ⟨hending, heffects⟩ := h.open_ hc
  constructor
  · rfl
  · exact List.nodup_nil
  · exact h.cleared
  · exact fun _ ht ↦ nomatch ht
  · exact fun _ ht ↦ nomatch ht
  · exact fun hopen ↦ nomatch hopen
  · exact fun _ ↦ ⟨rfl, rfl⟩
  · show ((l.effects ++ ks) ++ (l.ending ++ [p]).flatMap Phase.left).Nodup
    rw [hending, heffects]
    cases hp <;> decide

/-- What a call of `end` does next is what it may still do, and it may do no more then. -/
theorem next_left {p : Phase} {p' : Option Phase} {ks : List EffectKind} (h : p.Next p' ks) :
    (ks ++ p'.toList.flatMap Phase.left).Sublist p.left := by
  cases h <;> decide

theorem Sound.step (h : l.Sound ttl id) (hs : Step ttl id l m) : m.Sound ttl id := by
  cases hs with
  | create hc =>
    rw [Sound, hc] at h
    obtain ⟨-, htimers, hending, heffects⟩ := h
    refine sound_of_made rfl ⟨rfl, List.nodup_nil, htimers, ?_, ?_, ?_, ?_, ?_⟩
    · exact fun _ ht ↦ nomatch ht
    · exact fun _ ht ↦ nomatch ht
    · exact fun _ ↦ ⟨hending, heffects⟩
    · exact fun hended ↦ nomatch hended
    · show (l.effects ++ l.ending.flatMap Phase.left).Nodup
      rw [hending, heffects]
      exact List.nodup_nil
  | @join c ws hlive =>
    have hm := h.made hlive.1
    refine sound_of_made rfl ⟨hm.listed, nodup_addTo hm.sockets, hm.cleared, ?_, ?_, hm.open_, ?_,
      hm.once⟩
    · exact fun _ ht ↦ nomatch ht
    · exact fun _ ht ↦ nomatch ht
    · exact fun hended ↦ absurd (hlive.2.2.symm.trans hended) Bool.false_ne_true
  | @leave c ws hc _ =>
    have hm := h.made hc
    refine sound_of_made rfl { hm with sockets := hm.sockets.erase ws, gone := fun hended ↦ ?_ }
    obtain ⟨hnil, htimer⟩ := hm.gone hended
    exact ⟨by rw [hnil]; rfl, htimer⟩
  | @last c now timer hlive hown hdue =>
    have hm := h.made hlive.1
    refine sound_of_made rfl ⟨hm.listed, List.nodup_nil, ?_, ?_, ?_, hm.open_, ?_, hm.once⟩
    · show l.cleared c ++ [timer] = [timer]
      rw [hm.cleared, List.nil_append]
    · rintro _ ⟨⟩
      exact hown
    · rintro _ ⟨⟩
      exact ⟨now, rfl, hdue⟩
    · exact fun hended ↦ absurd (hlive.2.2.symm.trans hended) Bool.false_ne_true
  | finish hlive hp => exact sound_of_made rfl ((h.made hlive.1).finish hlive.2.2 hp)
  | @fired c p ks timer hlive hp =>
    have hm := (h.made hlive.1).finish hlive.2.2 hp
    refine sound_of_made rfl { hm with timers := ?_ }
    show (l.timers.filter (· ≠ timer)).filter _ = []
    rw [List.filter_filter, List.filter_eq_nil_iff]
    intro t ht hp
    have hcleared := List.filter_eq_nil_iff.mp (h.made hlive.1).cleared t ht
    exact hcleared (Bool.and_eq_true_iff.mp hp).1
  | lapsed timer hdead =>
    cases hcore : l.core with
    | none =>
      rw [Sound, hcore] at h
      obtain ⟨hlisted, htimers, hending, heffects⟩ := h
      rw [Sound]
      dsimp only
      exact ⟨hlisted, by rw [htimers]; rfl, hending, heffects⟩
    | some c =>
      have hm := h.made hcore
      have hended : c.ended = true := by
        by_contra hopen
        have hopen : c.ended = false := by simpa using hopen
        exact hdead c ⟨hcore, by rw [hm.listed, hopen]; rfl, hopen⟩
      obtain ⟨-, hnone⟩ := hm.gone hended
      refine sound_of_made rfl { hm with timers := ?_ }
      show l.timers.filter _ = _
      rw [hm.timers, hnone]
      rfl
  | @resumed a b p p' ks hending hnext =>
    cases hcore : l.core with
    | none =>
      rw [Sound, hcore] at h
      rw [h.2.2.1] at hending
      exact absurd hending.symm (List.append_ne_nil_of_right_ne_nil _ (List.cons_ne_nil p b))
    | some c =>
      have hm := h.made hcore
      refine sound_of_made rfl { hm with open_ := fun hopen ↦ ?_, once := ?_ }
      · rw [(hm.open_ hopen).1] at hending
        exact absurd hending.symm (List.append_ne_nil_of_right_ne_nil _ (List.cons_ne_nil p b))
      · have honce := hm.once
        rw [hending, List.flatMap_append, List.flatMap_cons] at honce
        refine (List.Perm.nodup_iff ?_).mp (honce.sublist
          ((((next_left hnext).append_right (b.flatMap left)).append_left
            (a.flatMap left)).append_left l.effects))
        rw [List.flatMap_append, List.flatMap_append, List.append_assoc, List.append_assoc,
          List.append_assoc]
        exact (List.perm_append_comm_assoc _ _ _).append_left l.effects

/-- A session that has ended has no sockets, and no lookup finds it. -/
def Gone (l : Life) : Prop := ∃ c, l.core = some c ∧ c.ended = true

theorem Gone.step (h : l.Gone) (hs : Step ttl id l m) : m.Gone := by
  obtain ⟨c, hc, hended⟩ := h
  have hdead : ∀ {c'}, ¬ l.Live c' := by
    rintro c' ⟨hc', -, hopen⟩
    obtain rfl := Option.some.inj (hc.symm.trans hc')
    exact Bool.false_ne_true (hopen.symm.trans hended)
  cases hs with
  | create hnone => exact nomatch hnone.symm.trans hc
  | join ws hlive => exact absurd hlive hdead
  | leave ws hc' _ =>
    obtain rfl := Option.some.inj (hc.symm.trans hc')
    exact ⟨_, rfl, hended⟩
  | last now timer hlive _ _ => exact absurd hlive hdead
  | finish hlive _ => exact ⟨_, rfl, rfl⟩
  | fired timer hlive _ => exact ⟨_, rfl, rfl⟩
  | lapsed timer _ => exact ⟨c, hc, hended⟩
  | resumed _ _ => exact ⟨c, hc, hended⟩

/-- A session that has ended, or has a socket or a timer. -/
def Watched (l : Life) : Prop :=
  ∃ c, l.core = some c ∧ (c.ended = false → c.sockets ≠ [] ∨ c.detachTimer ≠ none)

theorem Watched.step (h : l.Watched) (hs : Step ttl id l m) : m.Watched := by
  obtain ⟨c, hc, hwatch⟩ := h
  cases hs with
  | create hnone => exact nomatch hnone.symm.trans hc
  | join ws _ => exact ⟨_, rfl, fun _ ↦ .inl (List.ne_nil_of_mem (mem_addTo ws _))⟩
  | leave ws hc' hleft =>
    refine ⟨_, rfl, fun hopen ↦ .inl ?_⟩
    obtain hleft | hended := hleft
    · exact hleft
    · exact absurd (hopen.symm.trans hended) Bool.false_ne_true
  | last now timer _ _ _ => exact ⟨_, rfl, fun _ ↦ .inr (Option.some_ne_none timer)⟩
  | finish hlive _ => exact ⟨_, rfl, fun hopen ↦ nomatch hopen⟩
  | fired timer hlive _ => exact ⟨_, rfl, fun hopen ↦ nomatch hopen⟩
  | lapsed timer _ => exact ⟨c, hc, hwatch⟩
  | resumed _ _ => exact ⟨c, hc, hwatch⟩

end Life

/-! ## What the hub does to a life -/

namespace Hub

variable {ttl : Nat} {s t u : Hub} {id j : Id} {rec : Rec}

def Sound (ttl : Nat) (s : Hub) : Prop := ∀ id, (s.life id).Sound ttl id

/-- Every life has gone on by steps. -/
def Follows (ttl : Nat) (s t : Hub) : Prop := ∀ id, ReflTransGen (Life.Step ttl id) (s.life id) (t.life id)

theorem Follows.refl (s : Hub) : Follows ttl s s := fun _ ↦ .refl

theorem Follows.trans (h : Follows ttl s t) (h' : Follows ttl t u) : Follows ttl s u :=
  fun id ↦ (h id).trans (h' id)

theorem follows_of_life_eq (h : ∀ id, t.life id = s.life id) : Follows ttl s t := fun id ↦ h id ▸ .refl

theorem follows_of_step (hstep : Life.Step ttl j (s.life j) (t.life j))
    (hother : ∀ id, id ≠ j → t.life id = s.life id) : Follows ttl s t := by
  intro id
  by_cases hid : id = j
  · rw [hid]
    exact .single hstep
  · rw [hother id hid]

theorem Sound.made (h : s.Sound ttl) (hrec : s.recs j = some rec) : (s.life j).Made ttl j rec.core :=
  (h j).made (by rw [life, hrec]; rfl)

theorem Live.life (h : s.Live j rec) : (s.life j).Live rec.core := by
  refine ⟨?_, decide_eq_true h.listed, h.open_⟩
  rw [Hub.life, h.made]
  rfl

/-- The timer of a record is one of its session. -/
def Own (s : Hub) : Prop :=
  ∀ j rec, s.recs j = some rec → ∀ timer ∈ rec.detachTimer, timer.sessionId = j

theorem Sound.own (h : s.Sound ttl) : s.Own := fun _ _ hrec ↦ (h.made hrec).own

theorem filter_cleared_self (s : Hub) (j : Id) (rec : Rec) :
    (s.timers.filter fun timer ↦ some timer ≠ rec.detachTimer).filter (fun timer ↦ timer.sessionId = j) =
      (s.life j).cleared rec.core :=
  List.filter_comm ..

theorem filter_cleared_of_ne (h : s.Own) (hrec : s.recs j = some rec) (hid : id ≠ j) :
    (s.timers.filter fun timer ↦ some timer ≠ rec.detachTimer).filter (fun timer ↦ timer.sessionId = id) =
      s.timers.filter fun timer ↦ timer.sessionId = id := by
  rw [List.filter_filter]
  refine List.filter_congr fun timer _ ↦ ?_
  by_cases hown : timer.sessionId = id
  · have hne : some timer ≠ rec.detachTimer := by
      intro htimer
      exact hid (hown.symm.trans (h j rec hrec timer htimer.symm))
    simp [hown, hne]
  · simp [hown]

theorem core_update_self (s : Hub) (j : Id) (rec : Rec) :
    (Function.update s.recs j (some rec) j).map Rec.core = some rec.core := by
  rw [Function.update_self]
  rfl

theorem core_update_of_ne (s : Hub) (rec : Rec) (hid : id ≠ j) :
    (Function.update s.recs j (some rec) id).map Rec.core = (s.recs id).map Rec.core := by
  rw [Function.update_of_ne hid]

theorem follows_join (h : s.Sound ttl) (hlive : s.Live j rec) (ws : Socket) {rec' : Rec}
    (hcore : rec'.core =
      { rec.core with sockets := addTo ws rec.sockets, detachedAt := none, detachTimer := none })
    (hrecs : t.recs = Function.update s.recs j (some rec'))
    (htimers : t.timers = s.timers.filter fun timer ↦ some timer ≠ rec.detachTimer)
    (hsessions : t.sessions = s.sessions) (hending : t.ending = s.ending)
    (heffects : t.effects = s.effects) : Follows ttl s t := by
  refine follows_of_step (j := j) ?_ fun id hid ↦ ?_
  · have hlife : t.life j =
        { s.life j with
          core := some { rec.core with
            sockets := addTo ws rec.sockets, detachedAt := none, detachTimer := none }
          timers := (s.life j).cleared rec.core } := by
      unfold life
      rw [hrecs, htimers, hsessions, hending, heffects, core_update_self, hcore,
        filter_cleared_self]
      rfl
    rw [hlife]
    exact .join ws hlive.life
  · unfold life
    rw [hrecs, htimers, hsessions, hending, heffects, core_update_of_ne s rec' hid,
      filter_cleared_of_ne h.own hlive.made hid]

theorem follows_addSocket (h : s.Sound ttl) (j : Id) (ws : Socket) : Follows ttl s (s.addSocket j ws) := by
  obtain ⟨-, he⟩ | ⟨rec, hlive, he⟩ := addSocket_cases s j ws
  · rw [he]
    exact .refl s
  · rw [he]
    exact follows_join h hlive ws rfl rfl rfl rfl rfl rfl

theorem follows_attach (h : s.Sound ttl) {ws : Socket} {owner : Owner} (ht : s.attach j ws owner = .ok t) :
    Follows ttl s t := by
  obtain ⟨rec, greeting, howned, -, rfl⟩ := attach_ok ht
  exact follows_join h (live_of_requireOwned howned).1 ws rfl rfl rfl rfl rfl rfl

theorem follows_detach (h : s.Sound ttl) (j : Id) (ws : Socket) : Follows ttl s (s.detach ttl j ws) := by
  obtain ⟨-, he⟩ | ⟨rec, hrec, hlisted, hws, ⟨hleft, he⟩ | ⟨hlast, hopen, he⟩⟩ := detach_cases s ttl j ws
  · rw [he]
    exact .refl s
  · rw [he]
    refine follows_of_step (j := j) ?_ fun id hid ↦ ?_
    · have hcore : (s.life j).core = some rec.core := by rw [life, hrec]; rfl
      have hstep : Life.Step ttl j _ _ := .leave ws hcore hleft
      unfold life at hstep ⊢
      rw [core_update_self]
      exact hstep
    · unfold life
      rw [core_update_of_ne s _ hid]
  · rw [he]
    have hlive : s.Live j rec := ⟨hrec, hlisted, hopen⟩
    refine follows_of_step (j := j) ?_ fun id hid ↦ ?_
    · have hstep : Life.Step ttl j _ _ :=
        .last s.now ⟨s.nextHandle, s.now + ttl * 1000, j⟩ hlive.life rfl rfl
      unfold life at hstep ⊢
      rw [core_update_self, List.filter_append, filter_cleared_self, List.filter_singleton,
        decide_eq_true rfl]
      exact hstep
    · unfold life
      rw [core_update_of_ne s _ hid, List.filter_append, filter_cleared_of_ne h.own hrec hid,
        List.filter_singleton, decide_eq_false hid.symm]
      simp

theorem firstOf_first (rec : Rec) (id : Id) :
    (firstOf rec id).1.First ((firstOf rec id).2.map fun e ↦ e.2.kind) := by
  unfold firstOf
  split
  · exact .recorded
  · exact .unrecorded

theorem fst_of_mem_firstOf {e : Id × Effect} (he : e ∈ (firstOf rec id).2) : e.1 = id := by
  unfold firstOf at he
  split at he
  · rw [List.mem_singleton.mp he]
  · exact absurd he List.not_mem_nil

/-- The life of a session that `end` is called for. -/
theorem life_endSession_self (hlive : s.Live j rec) (reason : String)
    (extra : List (String × String)) :
    (s.endSession j reason extra).life j =
      (s.life j).finish rec.core (firstOf rec j).1 ((firstOf rec j).2.map fun e ↦ e.2.kind) := by
  obtain ⟨hdead, -⟩ | ⟨rec', hlive', he⟩ := endSession_cases s j reason extra
  · exact absurd hlive (hdead rec)
  · obtain rfl := Option.some.inj (hlive.made.symm.trans hlive'.made)
    have heffects : (firstOf rec j).2.filter (fun e ↦ e.1 = j) = (firstOf rec j).2 :=
      List.filter_eq_self.mpr fun e he ↦ decide_eq_true (fst_of_mem_firstOf he)
    rw [he]
    unfold life Life.finish
    rw [core_update_self, filter_cleared_self, List.filter_append, List.filter_append, heffects,
      List.map_append, List.map_append, List.filter_singleton, decide_eq_true rfl]
    congr 1
    simp

theorem life_endSession_of_ne (h : s.Own) (hid : id ≠ j) (reason : String)
    (extra : List (String × String)) : (s.endSession j reason extra).life id = s.life id := by
  obtain ⟨-, he⟩ | ⟨rec, hlive, he⟩ := endSession_cases s j reason extra
  · rw [he]
  · have heffects : (firstOf rec j).2.filter (fun e ↦ e.1 = id) = [] := by
      refine List.filter_eq_nil_iff.mpr fun e he hown ↦ ?_
      exact hid ((of_decide_eq_true hown).symm.trans (fst_of_mem_firstOf he))
    rw [he]
    unfold life
    rw [core_update_of_ne s _ hid, filter_cleared_of_ne h hlive.made hid, List.filter_append,
      List.filter_append, heffects, List.append_nil, List.filter_singleton,
      decide_eq_false hid.symm]
    simp [hid]

theorem follows_endSession (h : s.Sound ttl) (j : Id) (reason : String)
    (extra : List (String × String)) : Follows ttl s (s.endSession j reason extra) := by
  obtain ⟨-, he⟩ | ⟨rec, hlive, -⟩ := endSession_cases s j reason extra
  · rw [he]
    exact .refl s
  · refine follows_of_step (j := j) ?_ fun id hid ↦ life_endSession_of_ne h.own hid reason extra
    rw [life_endSession_self hlive]
    exact .finish hlive.life (firstOf_first rec j)

theorem follows_fire (h : s.Sound ttl) (timer : Timer) : Follows ttl s (s.fire timer) := by
  have hself : ({ s with timers := s.timers.filter (· ≠ timer) } : Hub).life timer.sessionId =
      { s.life timer.sessionId with
        timers := (s.life timer.sessionId).timers.filter (· ≠ timer) } := by
    unfold life
    rw [List.filter_comm]
  have hother : ∀ id, id ≠ timer.sessionId →
      ({ s with timers := s.timers.filter (· ≠ timer) } : Hub).life id = s.life id := by
    intro id hid
    unfold life
    rw [List.filter_filter]
    congr 1
    refine List.filter_congr fun t _ ↦ ?_
    by_cases ht : t = timer
    · simp [ht, hid.symm]
    · simp [ht]
  refine follows_of_step (j := timer.sessionId) ?_ fun id hid ↦ ?_
  · unfold fire
    obtain ⟨hdead, he⟩ | ⟨rec, hlive, -⟩ := endSession_cases
      { s with timers := s.timers.filter (· ≠ timer) } timer.sessionId "detached_timeout" []
    · rw [he, hself]
      refine .lapsed timer fun c hc ↦ ?_
      obtain ⟨rec, hrec, rfl⟩ := Option.map_eq_some_iff.mp hc.1
      exact hdead rec ⟨hrec, of_decide_eq_true hc.2.1, hc.2.2⟩
    · rw [life_endSession_self hlive, hself]
      exact .fired timer (Live.life (s := s) ⟨hlive.made, hlive.listed, hlive.open_⟩)
        (firstOf_first rec _)
  · have hown : Own { s with timers := s.timers.filter (· ≠ timer) } := h.own
    exact (life_endSession_of_ne hown hid _ _).trans (hother id hid)

theorem core_assign {f : Rec → Rec} (hf : ∀ rec, (f rec).core = rec.core) (s : Hub) (j id : Id) :
    ((s.assign j f).recs id).map Rec.core = (s.recs id).map Rec.core := by
  unfold assign
  dsimp only
  by_cases hid : id = j
  · rw [hid, Function.update_self, Option.map_map]
    exact congrArg (Option.map · (s.recs j)) (funext hf)
  · rw [Function.update_of_ne hid]

theorem follows_assign {f : Rec → Rec} (hf : ∀ rec, (f rec).core = rec.core)
    (hrecs : t.recs = (s.assign j f).recs) (hsessions : t.sessions = s.sessions)
    (htimers : t.timers = s.timers) (hending : t.ending = s.ending)
    (heffects : t.effects = s.effects) : Follows ttl s t := by
  refine follows_of_life_eq fun id ↦ ?_
  unfold life
  rw [hrecs, hsessions, htimers, hending, heffects, core_assign hf]

theorem follows_onData (s : Hub) (j : Id) (rec : Rec) (chunk : Chunk) :
    Follows ttl s (s.onData j rec chunk) :=
  follows_assign (j := j) (f := fun rec ↦
    { rec with
      lastActivityAt := s.now
      buffer := rec.buffer.push chunk
      recordingWriter := rec.recordingWriter.map (· ++ [chunk]) })
    (fun _ ↦ rfl) rfl rfl rfl rfl rfl

theorem follows_create (hfree : s.recs j = none) {owner : Owner} {recording : Bool}
    {arId : Option Id} {arExpiresAt : Option Millis} :
    Follows ttl s (s.create j owner recording arId arExpiresAt) := by
  refine follows_of_step (j := j) ?_ fun id hid ↦ ?_
  · have hcore : (s.life j).core = none := by rw [life, hfree]; rfl
    have hstep : Life.Step ttl j _ _ := .create hcore
    unfold create life at *
    rw [core_update_self]
    simpa [Rec.core] using hstep
  · unfold create life
    rw [core_update_of_ne s _ hid]
    simp [hid]

theorem follows_resumed {i : Nat} {e : Ending} (es : List Effect) (he : s.ending[i]? = some e)
    {p' : Option Phase} (hnext : e.phase.Next p' (es.map Effect.kind))
    (hcore : ∀ id, (t.recs id).map Rec.core = (s.recs id).map Rec.core)
    (hsessions : t.sessions = s.sessions) (htimers : t.timers = s.timers)
    (hending : t.ending = s.ending.take i ++
      (p'.toList.map fun p ↦ { e with phase := p }) ++ s.ending.drop (i + 1))
    (heffects : t.effects = s.effects ++ es.map fun x ↦ (e.sessionId, x)) : Follows ttl s t := by
  have hsplit : s.ending = s.ending.take i ++ e :: s.ending.drop (i + 1) := by
    obtain ⟨hi, rfl⟩ := List.getElem?_eq_some_iff.mp he
    rw [List.getElem_cons_drop, List.take_append_drop]
  refine follows_of_step (j := e.sessionId) ?_ fun id hid ↦ ?_
  · have hbefore : (s.life e.sessionId).ending =
        ((s.ending.take i).filter fun e' ↦ e'.sessionId = e.sessionId).map (fun e' ↦ e'.phase) ++
          e.phase ::
            ((s.ending.drop (i + 1)).filter fun e' ↦ e'.sessionId = e.sessionId).map fun e' ↦ e'.phase := by
      show (s.ending.filter _).map _ = _
      conv_lhs => rw [hsplit]
      simp
    refine Life.Step.of_eq (.resumed hbefore hnext) ?_
    unfold life
    rw [hcore, hsessions, htimers, hending, heffects]
    congr 1
    · cases p' <;> simp
    · simp [List.filter_map, Function.comp_def]
  · unfold life
    rw [hcore, hsessions, htimers, hending, heffects]
    conv_rhs => rw [hsplit]
    have hne : e.sessionId ≠ id := hid.symm
    congr 1
    · cases p' <;> simp [hne]
    · simp [hne]

theorem follows_resume {i : Nat} {ok : Bool} (ht : s.resume i ok = some t) : Follows ttl s t := by
  unfold resume at ht
  split at ht
  · cases ht
  · rename_i e he
    obtain ⟨j, reason, extra, phase⟩ := e
    have hreleased := core_assign (f := fun rec ↦ { rec with recordingWriter := none }) (fun _ ↦ rfl) s j
    have hi : i < s.ending.length := (List.getElem?_eq_some_iff.mp he).1
    have hset : ∀ p, s.ending.set i ⟨j, reason, extra, p⟩ =
        s.ending.take i ++ [⟨j, reason, extra, p⟩] ++ s.ending.drop (i + 1) := by
      intro p
      rw [List.set_eq_take_append_cons_drop, if_pos hi, List.append_assoc, List.singleton_append]
    cases phase with
    | upload =>
      cases ok with
      | true =>
        obtain rfl := Option.some.inj ht
        exact follows_resumed [] he .uploaded (fun _ ↦ rfl) rfl rfl (hset _)
          (List.append_nil _).symm
      | false =>
        obtain rfl := Option.some.inj ht
        exact follows_resumed [] he .discarded hreleased rfl rfl (hset _)
          (List.append_nil _).symm
    | recordingKey =>
      obtain rfl := Option.some.inj ht
      cases ok with
      | true =>
        exact follows_resumed [.saveRecordingKey] he .stored hreleased rfl rfl (hset _) rfl
      | false => exact follows_resumed [] he .unstored hreleased rfl rfl (hset _) rfl
    | row =>
      obtain rfl := Option.some.inj ht
      have herase : s.ending.eraseIdx i = s.ending.take i ++ [] ++ s.ending.drop (i + 1) := by
        rw [List.append_nil, List.eraseIdx_eq_take_drop_succ]
      cases ok with
      | true =>
        exact follows_resumed [.closeRow _ _, .audit reason] he .written (fun _ ↦ rfl) rfl
          rfl herase (List.append_assoc ..)
      | false =>
        exact follows_resumed [.audit reason] he .unwritten (fun _ ↦ rfl) rfl rfl herase
          (List.append_assoc ..)

theorem Sound.follows (h : s.Sound ttl) (ht : Follows ttl s t) : t.Sound ttl :=
  fun id ↦ Life.kept (fun _ _ ↦ Life.Sound.step) (h id) (ht id)

theorem chained_follows : Chained fun s t ↦ s.Sound ttl → Follows ttl s t where
  refl s _ := .refl s
  trans h h' hs := (h hs).trans (h' (hs.follows (h hs)))
  endSession _ j reason extra h := follows_endSession h j reason extra
  refresh _ j expiresAt _ :=
    follows_assign (j := j) (f := fun rec ↦ { rec with accessRequestExpiresAt := some expiresAt })
      (fun _ ↦ rfl) rfl rfl rfl rfl rfl
  checks _ _ _ := follows_of_life_eq fun _ ↦ rfl

/-- **Whatever happens, every life goes on by steps.** -/
theorem follows_step (h : s.Sound ttl) {e : Event} (ht : step ttl s e = some t) : Follows ttl s t := by
  cases e with
  | create j owner recording arId arExpiresAt =>
    rw [step] at ht
    split at ht
    · rename_i hfree
      obtain rfl := Option.some.inj ht
      exact follows_create hfree
    · cases ht
  | data j chunk =>
    obtain ⟨rec, -, rfl⟩ := Option.map_eq_some_iff.mp ht
    exact follows_onData s j rec chunk
  | addSocket j ws =>
    obtain rfl := Option.some.inj ht
    exact follows_addSocket h j ws
  | attach j ws owner =>
    rw [step] at ht
    split at ht
    · rename_i hok
      obtain rfl := Option.some.inj ht
      exact follows_attach h hok
    · obtain rfl := Option.some.inj ht
      exact .refl s
  | detach j ws =>
    obtain rfl := Option.some.inj ht
    exact follows_detach h j ws
  | endSession j reason extra =>
    obtain rfl := Option.some.inj ht
    exact follows_endSession h j reason extra
  | closeOwned j owner =>
    rw [step] at ht
    split at ht
    · rename_i hok
      obtain rfl := Option.some.inj ht
      exact chained_follows.closeOwned hok h
    · obtain rfl := Option.some.inj ht
      exact .refl s
  | resume i ok => exact follows_resume ht
  | fire timer =>
    rw [step] at ht
    split at ht
    · obtain rfl := Option.some.inj ht
      exact follows_fire h timer
    · cases ht
  | checkExpiries =>
    obtain rfl := Option.some.inj ht
    exact chained_follows.checkExpiries s h
  | checked i ars => exact chained_follows.checked ht h
  | endAllForUser userId orgId reason =>
    obtain rfl := Option.some.inj ht
    exact chained_follows.endAllForUser s userId orgId reason h
  | endAll reason =>
    obtain rfl := Option.some.inj ht
    exact chained_follows.endAll s reason h
  | tick ms =>
    obtain rfl := Option.some.inj ht
    exact follows_of_life_eq fun _ ↦ rfl
  | close ws =>
    obtain rfl := Option.some.inj ht
    exact follows_of_life_eq fun _ ↦ rfl

end Hub

end Shellius.Terminal
