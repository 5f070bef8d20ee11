import Shellius.Lib.Dict
import Shellius.Lib.Keyed
import Shellius.Terminal.Hub

/-!
# Closing the row of a session

A session has a row that says whether it is active, has ended or was terminated, and when.
Rows are closed by `sessionService.end` and `sessionService.terminate`; these are called when
an administrator terminates a session, when the hub ends one, and when guacamole-lite reports
that a connection was closed.

Each reads the row and then writes it.  `terminate` refuses a row that is not active when it
reads it, `end` does not look, and neither write does.
-/

namespace Shellius.Sessions

open Lib Terminal

/-! ## Rows -/

/-- `SessionStatus`, with how the session is over. -/
inductive RowStatus where
  | active
  | over (how : SessionStatus)
deriving DecidableEq

/-- `Session`, with the columns that say how it ended. -/
structure Session where
  id : Id
  orgId : Id
  status : RowStatus := .active
  startedAt : Millis
  endedAt : Option Millis := none
  durationSeconds : Option Int := none
  recordingKey : Option String := none
  metadata : Dict String String := []

/-- What the hub holds of a live session, with the key of its recording if there is one. -/
structure Live where
  orgId : Id
  recordingKey : Option String := none

/-- The rows and what the process keeps in memory: the map of the hub and the two maps of the
guacamole-lite connections. -/
structure Store where
  now : Millis
  sessions : Keyed Session.id := .empty
  hub : Id → Option Live := fun _ ↦ none
  rdpSessionByConn : Nat → Option Id := fun _ ↦ none
  rdpConnBySession : Id → Option Nat := fun _ ↦ none

/-- What a write leaves in the row; `none` leaves the metadata. -/
structure Closing where
  how : SessionStatus
  endedAt : Millis
  durationSeconds : Int
  metadata : Option (Dict String String) := none

inductive Operation
  | /-- `sessionService.end` -/
    endSession (sessionId : Id) (status : SessionStatus)
      (metadataPatch : Option (List (String × String)))
  | /-- `sessionService.terminate` -/
    terminate (orgId sessionId byUserId : Id)
  | terminateSession (orgId sessionId byUserId : Id)
  | /-- `hub.end` -/
    hubEnd (sessionId : Id) (reason : String) (extraMetadata : List (String × String))
  | /-- The handler of `close` of guacamole-lite. -/
    rdpClose (connectionId : Nat)

inductive Call
  | /-- `sessionService.end` reads the row. -/
    readEnd (sessionId : Id) (status : SessionStatus)
      (metadataPatch : Option (List (String × String)))
  | /-- `sessionService.terminate` reads the row, for `terminateSession` or not. -/
    readTerminate (orgId sessionId byUserId : Id) (close : Bool)
  | /-- The row is written, and the connection closed if there is one to close. -/
    write (sessionId : Id) (data : Closing) (close : Bool)
  | /-- `terminateSession` closes the connection. -/
    closeConn (sessionId : Id)
  | /-- `terminateSession` asks the hub. -/
    ask (orgId sessionId byUserId : Id)
  | /-- `hub.end` takes the session out of the map. -/
    take (sessionId : Id) (reason : String) (extraMetadata : List (String × String))
  | upload (sessionId : Id) (reason : String) (extraMetadata : List (String × String))
      (recordingKey : String)
  | saveKey (sessionId : Id) (reason : String) (extraMetadata : List (String × String))
      (recordingKey : String)
  | lookup (connectionId : Nat)

inductive Change
  | /-- `sessionService.create` -/
    create (session : Session)
  | /-- `hub.create` -/
    register (sessionId : Id) (live : Live)
  | /-- The handler of `open` of guacamole-lite fills its maps. -/
    opened (connectionId : Nat) (sessionId : Id)
  | time (now : Millis)

def start : Operation → Call
  | .endSession sessionId status metadataPatch => .readEnd sessionId status metadataPatch
  | .terminate orgId sessionId byUserId => .readTerminate orgId sessionId byUserId false
  | .terminateSession orgId sessionId byUserId => .ask orgId sessionId byUserId
  | .hubEnd sessionId reason extraMetadata => .take sessionId reason extraMetadata
  | .rdpClose connectionId => .lookup connectionId

/-! ## What a step does -/

/-- `{ ...existing, ...patch }` -/
def merge (existing : Dict String String) (patch : List (String × String)) :
    Dict String String := patch.foldl (fun d e ↦ d.set e.1 e.2) existing

/-- `Math.floor((now - startedAt) / 1000)` -/
def durationSeconds (now startedAt : Millis) : Int := (now - startedAt).fdiv 1000

def Session.close (row : Session) (data : Closing) : Session :=
  { row with
    status := .over data.how
    endedAt := some data.endedAt
    durationSeconds := some data.durationSeconds
    metadata := data.metadata.getD row.metadata }

namespace Store

variable (s : Store)

/-- `prisma.session.update` of a row; the update of a row that is gone throws. -/
def updateRow (sessionId : Id) (f : Session → Session) (hf : ∀ row, (f row).id = row.id) : Store :=
  { s with
    sessions := s.sessions.update (fun row ↦ if row.id = sessionId then f row else row) (by
      intro row
      split
      · exact hf row
      · rfl) }

def close (sessionId : Id) (data : Closing) : Store :=
  s.updateRow sessionId (·.close data) fun _ ↦ rfl

def saveKey (sessionId : Id) (recordingKey : String) : Store :=
  s.updateRow sessionId (fun row ↦ { row with recordingKey := some recordingKey }) fun _ ↦ rfl

def leaveHub (sessionId : Id) : Store := { s with hub := Function.update s.hub sessionId none }

/-- The row that `terminate` may close. -/
def terminable (orgId sessionId : Id) : Option Session :=
  (s.sessions.find sessionId).filter fun row ↦ row.orgId = orgId ∧ row.status = .active

/-- What `hub.end` goes on with once the session is out of the map. -/
def afterTake (live : Live) (sessionId : Id) (reason : String)
    (extraMetadata : List (String × String)) : Call :=
  match live.recordingKey with
  | some recordingKey => .upload sessionId reason extraMetadata recordingKey
  | none => .readEnd sessionId (Hub.statusFor reason) (some (Hub.metadataPatch reason extraMetadata))

end Store

section

variable (toISOString : Millis → String)

/-- What `end` writes, of a row it has read. -/
def endData (s : Store) (row : Session) (status : SessionStatus)
    (metadataPatch : Option (List (String × String))) : Closing where
  how := status
  endedAt := s.now
  durationSeconds := durationSeconds s.now row.startedAt
  metadata := metadataPatch.map (merge row.metadata)

/-- What `terminate` writes. -/
def terminateData (s : Store) (row : Session) (byUserId : Id) : Closing where
  how := .terminated
  endedAt := s.now
  durationSeconds := durationSeconds s.now row.startedAt
  metadata := some
    (merge row.metadata [("terminatedBy", byUserId), ("terminatedAt", toISOString s.now)])

def effect (s : Store) : Call → Store
  | .write sessionId data _ => s.close sessionId data
  | .closeConn sessionId =>
    { s with rdpConnBySession := Function.update s.rdpConnBySession sessionId none }
  | .ask orgId sessionId _ =>
    if ∃ live ∈ s.hub sessionId, live.orgId = orgId then s.leaveHub sessionId else s
  | .take sessionId _ _ => s.leaveHub sessionId
  | .saveKey sessionId _ _ recordingKey => s.saveKey sessionId recordingKey
  | .lookup connectionId =>
    match s.rdpSessionByConn connectionId with
    | some sessionId =>
      { s with
        rdpSessionByConn := Function.update s.rdpSessionByConn connectionId none
        rdpConnBySession := Function.update s.rdpConnBySession sessionId none }
    | none => s
  | .readEnd .. | .readTerminate .. | .upload .. => s

/-- What a call does after a step; `uploaded` is what `waitUpload` says. -/
def next (s : Store) (uploaded : Bool) : Call → Option Call
  | .readEnd sessionId status metadataPatch =>
    (s.sessions.find sessionId).map fun row ↦
      .write sessionId (endData s row status metadataPatch) false
  | .readTerminate orgId sessionId byUserId close =>
    (s.terminable orgId sessionId).map fun row ↦
      .write sessionId (terminateData toISOString s row byUserId) close
  | .write sessionId _ close => if close then some (.closeConn sessionId) else none
  | .ask orgId sessionId byUserId =>
    match s.hub sessionId with
    | some live =>
      if live.orgId = orgId then
        some (Store.afterTake live sessionId "terminated" [("terminatedBy", byUserId)])
      else none
    | none => some (.readTerminate orgId sessionId byUserId true)
  | .take sessionId reason extraMetadata =>
    (s.hub sessionId).map fun live ↦ Store.afterTake live sessionId reason extraMetadata
  | .upload sessionId reason extraMetadata recordingKey =>
    some (if uploaded then .saveKey sessionId reason extraMetadata recordingKey
      else .readEnd sessionId (Hub.statusFor reason) (some (Hub.metadataPatch reason extraMetadata)))
  | .saveKey sessionId reason extraMetadata _ =>
    some (.readEnd sessionId (Hub.statusFor reason) (some (Hub.metadataPatch reason extraMetadata)))
  | .lookup connectionId =>
    (s.rdpSessionByConn connectionId).map fun sessionId ↦ .readEnd sessionId .ended none
  | .closeConn _ => none

def change (s : Store) : Change → Option Store
  | .create session =>
    if session.status = .active then
      (s.sessions.insert? session).map fun sessions ↦ { s with sessions }
    else none
  | .register sessionId live =>
    some { s with hub := Function.update s.hub sessionId (some live) }
  | .opened connectionId sessionId =>
    some { s with
      rdpSessionByConn := Function.update s.rdpSessionByConn connectionId (some sessionId)
      rdpConnBySession := Function.update s.rdpConnBySession sessionId (some connectionId) }
  | .time now => if s.now ≤ now then some { s with now } else none

def program : Program Store Operation Call Bool Change where
  start
  act _ s k uploaded := some (effect s k, next toISOString s uploaded k)
  env := change

end

/-! ## Runs in which rows are closed one call at a time -/

def reads (s : Store) : Call → Option Id
  | .readEnd sessionId _ _ => (s.sessions.find sessionId).map fun _ ↦ sessionId
  | .readTerminate orgId sessionId _ _ => (s.terminable orgId sessionId).map fun _ ↦ sessionId
  | _ => none

/-- The row that a call has read and is about to write. -/
def Call.writes : Call → Option Id
  | .write sessionId _ _ => some sessionId
  | _ => none

def Store.IsActive (s : Store) (sessionId : Id) : Prop :=
  ∃ row ∈ s.sessions.find sessionId, row.status = .active

instance (s : Store) (sessionId : Id) : Decidable (s.IsActive sessionId) :=
  inferInstanceAs (Decidable (∃ row ∈ s.sessions.find sessionId, row.status = .active))

/-- A call that reads a row in order to close it finds it active, and no other call has read
it for that and is about to write it. -/
def InTurn (p : Pool Store Call) (e : Event Operation Bool Change) (_ : Pool Store Call) : Prop :=
  match e with
  | .act i _ => ∀ k ∈ p.calls i, ∀ sessionId ∈ reads p.store k,
      p.store.IsActive sessionId ∧
        ∀ j ≠ i, ∀ l ∈ p.calls j, l.writes ≠ some sessionId
  | _ => True

/-! ## What a step keeps -/

section

variable {s s' : Store} {k k' : Call} {sessionId : Id} {row : Session} {f : Session → Session}
  {toISOString : Millis → String} {uploaded : Bool}

theorem mem_updateRow {hf : ∀ row, (f row).id = row.id} :
    row ∈ (s.updateRow sessionId f hf).sessions ↔
      ∃ old ∈ s.sessions, (if old.id = sessionId then f old else old) = row := List.mem_map

theorem isActive_iff : s.IsActive sessionId ↔
    ∃ row ∈ s.sessions, row.id = sessionId ∧ row.status = .active := by
  constructor
  · rintro ⟨row, hrow, hactive⟩
    obtain ⟨hmem, hid⟩ := Keyed.find_eq_some.mp hrow
    exact ⟨row, hmem, hid, hactive⟩
  · rintro ⟨row, hmem, hid, hactive⟩
    exact ⟨row, Keyed.find_eq_some.mpr ⟨hmem, hid⟩, hactive⟩

/-- Rows stay that are closed, and how and when does not change. -/
def KeepsClosed (s s' : Store) : Prop :=
  ∀ row ∈ s.sessions, row.status ≠ .active → ∃ row' ∈ s'.sessions,
    row'.id = row.id ∧ row'.status = row.status ∧ row'.endedAt = row.endedAt

theorem KeepsClosed.refl (s : Store) : KeepsClosed s s := fun row hrow _ ↦
  ⟨row, hrow, rfl, rfl, rfl⟩

theorem KeepsClosed.trans {t : Store} (h : KeepsClosed s s') (h' : KeepsClosed s' t) :
    KeepsClosed s t := by
  intro row hrow hclosed
  obtain ⟨row', hrow', hid, hstatus, hended⟩ := h row hrow hclosed
  obtain ⟨row'', hrow'', hid', hstatus', hended'⟩ := h' row' hrow' (hstatus ▸ hclosed)
  exact ⟨row'', hrow'', hid'.trans hid, hstatus'.trans hstatus, hended'.trans hended⟩

theorem keepsClosed_close {data : Closing} (h : s.IsActive sessionId) :
    KeepsClosed s (s.close sessionId data) := by
  intro row hrow hclosed
  obtain ⟨active, hmem, hid, hactive⟩ := isActive_iff.mp h
  have hne : row.id ≠ sessionId := by
    intro heq
    have hsame : row = active := Keyed.ext hrow hmem (heq.trans hid.symm)
    exact hclosed (hsame ▸ hactive)
  exact ⟨row, mem_updateRow.mpr ⟨row, hrow, if_neg hne⟩, rfl, rfl, rfl⟩

theorem exists_saveKey {recordingKey : String} (hrow : row ∈ s.sessions) :
    ∃ row' ∈ (s.saveKey sessionId recordingKey).sessions,
      row'.id = row.id ∧ row'.status = row.status ∧ row'.endedAt = row.endedAt := by
  refine ⟨_, mem_updateRow.mpr ⟨row, hrow, rfl⟩, ?_⟩
  split
  · exact ⟨rfl, rfl, rfl⟩
  · exact ⟨rfl, rfl, rfl⟩

theorem sessions_effect (hwrites : k.writes = none)
    (hsave : ∀ id reason extra key, k ≠ .saveKey id reason extra key) :
    (effect s k).sessions = s.sessions := by
  cases k with
  | write => cases hwrites
  | saveKey id reason extra key => exact absurd rfl (hsave id reason extra key)
  | ask =>
    simp only [effect]
    split <;> rfl
  | lookup =>
    simp only [effect]
    split <;> rfl
  | readEnd | readTerminate | closeConn | take | upload => rfl

theorem keepsClosed_effect (h : ∀ id, k.writes = some id → s.IsActive id) :
    KeepsClosed s (effect s k) := by
  cases k with
  | write sessionId data close => exact keepsClosed_close (h sessionId rfl)
  | saveKey => exact fun row hrow _ ↦ exists_saveKey hrow
  | readEnd | readTerminate | closeConn | ask | take | upload | lookup =>
    intro row hrow _
    refine ⟨row, ?_, rfl, rfl, rfl⟩
    rw [sessions_effect rfl (by intro _ _ _ _ hk; cases hk)]
    exact hrow

theorem isActive_effect (h : s.IsActive sessionId) (hwrites : k.writes ≠ some sessionId) :
    (effect s k).IsActive sessionId := by
  obtain ⟨row, hrow, hid, hactive⟩ := isActive_iff.mp h
  cases k with
  | write id data close =>
    have hne : row.id ≠ id := by
      rintro rfl
      exact hwrites (congrArg some hid)
    have hmem : row ∈ (s.close id data).sessions :=
      mem_updateRow.mpr ⟨row, hrow, if_neg hne⟩
    exact isActive_iff.mpr ⟨row, hmem, hid, hactive⟩
  | saveKey id reason extra key =>
    obtain ⟨row', hrow', hid', hstatus, -⟩ := exists_saveKey hrow
    exact isActive_iff.mpr ⟨row', hrow', hid'.trans hid, hstatus.trans hactive⟩
  | readEnd | readTerminate | closeConn | ask | take | upload | lookup =>
    refine isActive_iff.mpr ⟨row, ?_, hid, hactive⟩
    rw [sessions_effect rfl (by intro _ _ _ _ hk; cases hk)]
    exact hrow

theorem reads_of_next (hnext : next toISOString s uploaded k = some k')
    (hwrites : k'.writes = some sessionId) : reads s k = some sessionId := by
  have htake : ∀ live id reason extra, (Store.afterTake live id reason extra).writes = none := by
    intro live id reason extra
    unfold Store.afterTake
    split <;> rfl
  cases k with
  | readEnd id status patch =>
    obtain ⟨row, hrow, rfl⟩ := Option.map_eq_some_iff.mp hnext
    obtain rfl := Option.some.inj hwrites
    rw [reads, hrow]
    rfl
  | readTerminate orgId id byUserId close =>
    obtain ⟨row, hrow, rfl⟩ := Option.map_eq_some_iff.mp hnext
    obtain rfl := Option.some.inj hwrites
    rw [reads, hrow]
    rfl
  | write id data close =>
    obtain ⟨-, hnext⟩ := Option.ite_none_right_eq_some.mp hnext
    obtain rfl := Option.some.inj hnext
    cases hwrites
  | closeConn => cases hnext
  | ask orgId id byUserId =>
    simp only [next] at hnext
    split at hnext
    · obtain ⟨-, hnext⟩ := Option.ite_none_right_eq_some.mp hnext
      obtain rfl := Option.some.inj hnext
      rw [htake] at hwrites
      cases hwrites
    · obtain rfl := Option.some.inj hnext
      cases hwrites
  | take id reason extra =>
    obtain ⟨live, -, rfl⟩ := Option.map_eq_some_iff.mp hnext
    rw [htake] at hwrites
    cases hwrites
  | upload id reason extra key =>
    obtain rfl := Option.some.inj hnext
    split at hwrites <;> cases hwrites
  | saveKey id reason extra key =>
    obtain rfl := Option.some.inj hnext
    cases hwrites
  | lookup connectionId =>
    obtain ⟨id, -, rfl⟩ := Option.map_eq_some_iff.mp hnext
    cases hwrites

theorem writes_of_reads (h : reads s k = some sessionId) : k.writes = none := by
  cases k with
  | write => cases h
  | _ => rfl

theorem mem_change {c : Change} (hc : change s c = some s') (hrow : row ∈ s.sessions) :
    row ∈ s'.sessions := by
  cases c with
  | create session =>
    obtain ⟨-, hc⟩ := Option.ite_none_right_eq_some.mp hc
    obtain ⟨sessions, hinsert, rfl⟩ := Option.map_eq_some_iff.mp hc
    obtain ⟨hfree, rfl⟩ := Keyed.insert?_eq_some.mp hinsert
    exact (Keyed.mem_insert hfree).mpr (.inl hrow)
  | time now =>
    obtain ⟨-, hc⟩ := Option.ite_none_right_eq_some.mp hc
    obtain rfl := Option.some.inj hc
    exact hrow
  | register | opened =>
    obtain rfl := Option.some.inj hc
    exact hrow

end

/-! ## Every run -/

section

variable {toISOString : Millis → String} {p q : Pool Store Call}
  {e : Event Operation Bool Change} {es fs : List (Event Operation Bool Change)}

/-- A row that a call is about to write is active, and no other call is about to. -/
def Single (p : Pool Store Call) : Prop :=
  ∀ i k sessionId, p.calls i = some k → k.writes = some sessionId →
    p.store.IsActive sessionId ∧
      ∀ j l, p.calls j = some l → l.writes = some sessionId → j = i

theorem single_spawn {i : Nat} {a : Operation} (h : Single p) :
    Single ⟨p.store, Function.update p.calls i (some (start a))⟩ := by
  have hstart : ∀ sessionId, (start a).writes ≠ some sessionId := by
    intro sessionId hwrites
    cases a <;> cases hwrites
  have hold : ∀ j l sessionId, Function.update p.calls i (some (start a)) j = some l →
      l.writes = some sessionId → p.calls j = some l := by
    intro j l sessionId hj hwrites
    by_cases hji : j = i
    · subst hji
      rw [Function.update_self] at hj
      obtain rfl := Option.some.inj hj
      exact absurd hwrites (hstart sessionId)
    · rwa [Function.update_of_ne hji] at hj
  intro j l sessionId hj hwrites
  obtain ⟨hactive, hunique⟩ := h j l sessionId (hold j l sessionId hj hwrites) hwrites
  refine ⟨hactive, fun j' l' hj' hwrites' ↦ ?_⟩
  exact hunique j' l' (hold j' l' sessionId hj' hwrites') hwrites'

theorem single_act {i : Nat} {k : Call} {uploaded : Bool} (h : Single p) (hk : p.calls i = some k)
    (hturn : ∀ sessionId ∈ reads p.store k, p.store.IsActive sessionId ∧
      ∀ j ≠ i, ∀ l ∈ p.calls j, l.writes ≠ some sessionId) :
    Single ⟨effect p.store k, Function.update p.calls i (next toISOString p.store uploaded k)⟩ := by
  intro j l sessionId hj hwrites
  by_cases hji : j = i
  · -- the call itself: it has just read the row
    subst hji
    have hnext : next toISOString p.store uploaded k = some l := by simpa using hj
    have hreads := reads_of_next hnext hwrites
    obtain ⟨hactive, hnone⟩ := hturn sessionId hreads
    refine ⟨isActive_effect hactive ?_, fun j' l' hj' hwrites' ↦ ?_⟩
    · rw [writes_of_reads hreads]
      exact (Option.some_ne_none _).symm
    · by_contra hne
      exact hnone j' hne l' (by simpa [Function.update_of_ne hne] using hj') hwrites'
  · -- another call: the row it is about to write is not the one that is written
    have hold : p.calls j = some l := by simpa [Function.update_of_ne hji] using hj
    obtain ⟨hactive, hunique⟩ := h j l sessionId hold hwrites
    refine ⟨isActive_effect hactive fun hk' ↦ hji (hunique i k hk hk').symm, ?_⟩
    intro j' l' hj' hwrites'
    by_cases hji' : j' = i
    · subst hji'
      have hnext : next toISOString p.store uploaded k = some l' := by simpa using hj'
      exact absurd hwrites ((hturn sessionId (reads_of_next hnext hwrites')).2 j hji l hold)
    · exact hunique j' l' (by simpa [Function.update_of_ne hji'] using hj') hwrites'

theorem step_single (h : Single p) (hs : (program toISOString).step p e = some q)
    (hturn : InTurn p e q) : Single q ∧ KeepsClosed p.store q.store := by
  cases e with
  | spawn i a =>
    obtain ⟨-, rfl⟩ := Program.step_spawn hs
    exact ⟨single_spawn h, KeepsClosed.refl _⟩
  | act i uploaded =>
    obtain ⟨k, r, hk, hact, rfl⟩ := Program.step_act hs
    obtain rfl := Option.some.inj hact
    exact ⟨single_act h hk (hturn k hk), keepsClosed_effect fun id hid ↦ (h i k id hk hid).1⟩
  | abort i =>
    obtain ⟨k, hk, rfl⟩ := Program.step_abort hs
    have hold : ∀ j l, Function.update p.calls i none j = some l → p.calls j = some l := by
      intro j l hj
      by_cases hji : j = i
      · subst hji
        rw [Function.update_self] at hj
        cases hj
      · rwa [Function.update_of_ne hji] at hj
    refine ⟨fun j l id hj hid ↦ ?_, KeepsClosed.refl _⟩
    obtain ⟨hactive, hunique⟩ := h j l id (hold j l hj) hid
    exact ⟨hactive, fun j' l' hj' ↦ hunique j' l' (hold j' l' hj')⟩
  | env c =>
    obtain ⟨s', hc, rfl⟩ := Program.step_env hs
    refine ⟨fun j l id hj hid ↦ ?_, ?_⟩
    · obtain ⟨hactive, hunique⟩ := h j l id hj hid
      obtain ⟨row, hrow, hrid, hstatus⟩ := isActive_iff.mp hactive
      exact ⟨isActive_iff.mpr ⟨row, mem_change hc hrow, hrid, hstatus⟩, hunique⟩
    · intro row hrow _
      exact ⟨row, mem_change hc hrow, rfl, rfl, rfl⟩

theorem run_single (h : Single p) (hr : Run (program toISOString).step InTurn p es q) :
    Single q :=
  hr.invariant h fun _ _ _ ht hs hturn ↦ (step_single ht hs hturn).1

theorem single_idle (s : Store) : Single (Program.idle Call s) := by
  intro i k sessionId hk
  cases hk

/-- **A row is closed once in a run in which rows are closed one call at a time.** -/
theorem run_closedOnce {s : Store}
    (h₁ : Run (program toISOString).step InTurn (Program.idle Call s) es p)
    (h₂ : Run (program toISOString).step InTurn p fs q) :
    ∀ row ∈ p.store.sessions, row.status ≠ .active → ∃ row' ∈ q.store.sessions,
      row'.id = row.id ∧ row'.status = row.status ∧ row'.endedAt = row.endedAt := by
  have hsingle := run_single (single_idle s) h₁
  have hkeeps : Single q ∧ KeepsClosed p.store q.store :=
    h₂.invariant (I := fun r ↦ Single r ∧ KeepsClosed p.store r.store)
      ⟨hsingle, KeepsClosed.refl _⟩ fun t e u ht hs hturn ↦ by
        obtain ⟨hu, hstep⟩ := step_single ht.1 hs hturn
        exact ⟨hu, ht.2.trans hstep⟩
  exact hkeeps.2

end

/-! ## Examples -/

def twoSessions : Store where
  now := 5000
  sessions := ⟨[{ id := "rdp", orgId := "o1", startedAt := 0 },
    { id := "ssh", orgId := "o1", startedAt := 0 }], by decide⟩
  hub := fun id ↦ if id = "ssh" then some { orgId := "o1", recordingKey := some "k" } else none
  rdpSessionByConn := fun conn ↦ if conn = 7 then some "rdp" else none
  rdpConnBySession := fun id ↦ if id = "rdp" then some 7 else none

def noText (_ : Millis) : String := ""

def sshTerminated : List (Event Operation Bool Change) :=
  [.spawn 0 (.terminateSession "o1" "ssh" "admin"), .act 0 true, .act 0 true, .act 0 true,
    .act 0 true, .act 0 true]

def sshClosed : List (Event Operation Bool Change) :=
  [.env (.time 6000), .spawn 0 (.hubEnd "ssh" "closed" []), .act 0 true]

/-- A check of `InTurn` for runs with one call at a time. -/
def inTurn (p : Pool Store Call) : Event Operation Bool Change → Bool
  | .act i _ => (p.calls i).all fun k ↦ (reads p.store k).all fun id ↦ p.store.IsActive id
  | _ => true

theorem inTurn_sound {p q : Pool Store Call} {e : Event Operation Bool Change}
    (h : (∀ j, j ≠ 0 → p.calls j = none) ∧ inTurn p e = true) : InTurn p e q := by
  obtain ⟨hfree, h⟩ := h
  cases e with
  | act i uploaded =>
    intro k hk id hid
    have hi : i = 0 := by
      by_contra hne
      rw [hfree i hne] at hk
      cases hk
    subst hi
    have hactive : p.store.IsActive id := by
      simpa [inTurn, Option.mem_def.mp hk, Option.mem_def.mp hid] using h
    refine ⟨hactive, fun j hj l hl ↦ ?_⟩
    rw [hfree j hj] at hl
    cases hl
  | spawn | abort | env => trivial

theorem run_inTurn {p q : Pool Store Call} {es : List (Event Operation Bool Change)}
    (hfree : ∀ j, j ≠ 0 → p.calls j = none)
    (h : execIf (program noText).step (fun p e ↦ e.inFirst && inTurn p e) p es = some q) :
    Run (program noText).step InTurn p es q :=
  (Program.run_inFirst hfree h).mono fun _ _ _ ↦ inTurn_sound

theorem run_closedOnce_ssh : ∃ p q : Pool Store Call,
    (∀ row ∈ p.store.sessions, row.status ≠ .active → ∃ row' ∈ q.store.sessions,
      row'.id = row.id ∧ row'.status = row.status ∧ row'.endedAt = row.endedAt) ∧
      p.store.sessions.rows.map Session.status = [.active, .over .terminated] := by
  have hfree : ∀ j, j ≠ 0 → (Program.idle Call twoSessions).calls j = none := fun _ _ ↦ rfl
  have h : ∃ p q : Pool Store Call,
      execIf (program noText).step (fun p e ↦ e.inFirst && inTurn p e)
        (Program.idle Call twoSessions) sshTerminated = some p ∧
      execIf (program noText).step (fun p e ↦ e.inFirst && inTurn p e) p sshClosed = some q ∧
      p.store.sessions.rows.map Session.status = [.active, .over .terminated] :=
    ⟨_, _, rfl, rfl, rfl⟩
  obtain ⟨p, q, h₁, h₂, hstatus⟩ := h
  have hp := run_inTurn hfree h₁
  exact ⟨p, q, run_closedOnce hp (run_inTurn (Program.free_of_inFirst hfree h₁) h₂), hstatus⟩

def rdpTerminated : List (Event Operation Bool Change) :=
  [.spawn 0 (.terminateSession "o1" "rdp" "admin"), .act 0 true, .act 0 true, .act 0 true,
    .act 0 true]

def rdpClosed : List (Event Operation Bool Change) :=
  [.env (.time 6000), .spawn 0 (.rdpClose 7), .act 0 true, .act 0 true, .act 0 true]

/-- A session that was terminated is recorded as having ended. -/
theorem terminated_recorded_ended : ∃ p q : Pool Store Call,
    Run (program noText).step free (Program.idle Call twoSessions) rdpTerminated p ∧
      Run (program noText).step free p rdpClosed q ∧
      ¬ ∀ row ∈ p.store.sessions, row.status ≠ .active → ∃ row' ∈ q.store.sessions,
        row'.id = row.id ∧ row'.status = row.status ∧ row'.endedAt = row.endedAt := by
  have h : ∃ p q : Pool Store Call,
      exec (program noText).step (Program.idle Call twoSessions) rdpTerminated = some p ∧
      exec (program noText).step p rdpClosed = some q ∧
      p.store.sessions.rows.map (fun row ↦ (row.id, row.status)) =
        [("rdp", .over .terminated), ("ssh", .active)] ∧
      q.store.sessions.rows.map (fun row ↦ (row.id, row.status)) =
        [("rdp", .over .ended), ("ssh", .active)] := ⟨_, _, rfl, rfl, rfl, rfl⟩
  obtain ⟨p, q, h₁, h₂, hp, hq⟩ := h
  refine ⟨p, q, run_of_exec h₁, run_of_exec h₂, ?_⟩
  intro hall
  have hmem : ("rdp", RowStatus.over .terminated) ∈
      p.store.sessions.rows.map (fun row ↦ (row.id, row.status)) := by
    rw [hp]
    exact List.mem_cons_self
  obtain ⟨row, hrow, heq⟩ := List.mem_map.mp hmem
  obtain ⟨hid, hstatus⟩ := Prod.mk.inj heq
  obtain ⟨row', hrow', hid', hstatus', -⟩ := hall row hrow (by rw [hstatus]; decide)
  have hmem' := List.mem_map_of_mem (f := fun row : Session ↦ (row.id, row.status)) hrow'
  rw [hq, hid', hstatus', hid, hstatus] at hmem'
  exact absurd hmem' (by decide)

end Shellius.Sessions
