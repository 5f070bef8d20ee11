import Shellius.Lib.Pool
import Shellius.Schema

/-!
# The terminal hub

`terminalHub.js` keeps the live SSH sessions of a process in memory.  A session outlives the
sockets that show it: its output is kept in a ring buffer, from which a socket that attaches
later is served what it has missed, and it ends when no socket has been attached for
`DETACH_TTL_SECONDS`.

All of this happens in one thread.  What a function does up to its first `await` is one step;
`end` and `checkExpiries` wait for the database or for an upload, and are resumed later.  A
record that has been taken out of the map is still there for those who hold it: the handlers
of its stream, and a check that is waiting.
-/

namespace Shellius.Terminal

open Lib

/-! ## The ring buffer -/

/-- A `Buffer`. -/
abbrev Chunk := List UInt8

/-- `RING_BUFFER_MAX_BYTES` -/
def ringBufferMaxBytes : Nat := 512 * 1024

structure RingBuffer where
  maxBytes : Nat
  chunks : List Chunk := []
  size : Nat := 0

namespace RingBuffer

/-- The loop of `push`: chunks are shifted out, but not the last one. -/
def shiftChunks (maxBytes : Nat) : List Chunk → Nat → List Chunk × Nat
  | removed :: next :: rest, size =>
    if maxBytes < size then shiftChunks maxBytes (next :: rest) (size - removed.length)
    else (removed :: next :: rest, size)
  | chunks, size => (chunks, size)

/-- A single chunk larger than the whole buffer is trimmed to the tail. -/
def trimOnly (maxBytes : Nat) : List Chunk → Nat → List Chunk × Nat
  | [only], size =>
    if maxBytes < size then
      let trimmed := only.drop (only.length - maxBytes)
      ([trimmed], trimmed.length)
    else ([only], size)
  | chunks, size => (chunks, size)

def push (b : RingBuffer) (buf : Chunk) : RingBuffer :=
  if buf.length = 0 then b
  else
    let shifted := shiftChunks b.maxBytes (b.chunks ++ [buf]) (b.size + buf.length)
    let kept := trimOnly b.maxBytes shifted.1 shifted.2
    { b with chunks := kept.1, size := kept.2 }

/-- `Buffer.concat(this.chunks, this.size)`, which is cut or filled up to the size. -/
def toBuffer (b : RingBuffer) : Chunk :=
  let all := b.chunks.flatten
  (all ++ List.replicate (b.size - all.length) 0).take b.size

end RingBuffer

/-! ## Sessions -/

/-- A WebSocket, which is compared as an object. -/
abbrev Socket := Nat

/-- What `setTimeout` returns for a detach timer, with when it is due and what it ends. -/
structure Timer where
  handle : Nat
  due : Millis
  sessionId : Id
deriving DecidableEq

/-- A hub record; `recordingWriter` has what has been written to the recording, and
`accessRequestId` is that of `meta`. -/
structure Rec where
  orgId : Id
  userId : Id
  sockets : List Socket := []
  buffer : RingBuffer := { maxBytes := ringBufferMaxBytes }
  recordingWriter : Option (List Chunk) := none
  accessRequestId : Option Id := none
  accessRequestExpiresAt : Option Millis := none
  ended : Bool := false
  detachedAt : Option Millis := none
  detachTimer : Option Timer := none
  startedAt : Millis
  lastActivityAt : Millis

/-- What is sent to a socket. -/
inductive Frame where
  | attached (sessionId : Id) (replayBytes : Nat)
  | ended (reason : String)
  | data (chunk : Chunk)

structure Sent where
  socket : Socket
  sessionId : Id
  frame : Frame

inductive SessionStatus where
  | ended
  | terminated
deriving DecidableEq

/-- What the end of a session does outside the hub. -/
inductive Effect where
  /-- `recordingWriter.close()` -/
  | closeRecording
  /-- The recording has been uploaded, and its key is stored in the row. -/
  | saveRecordingKey
  /-- `sessionService.end` -/
  | closeRow (status : SessionStatus) (metadataPatch : List (String × String))
  /-- The entry of the audit log. -/
  | audit (reason : String)

/-- What a call of `end` is waiting for. -/
inductive Phase where
  | upload
  | recordingKey
  | row

/-- A call of `end` that has been let in. -/
structure Ending where
  sessionId : Id
  reason : String
  extraMetadata : List (String × String)
  phase : Phase

/-- A call of `checkExpiries` that waits for the access requests. -/
structure Check where
  now : Millis
  withAr : List Id

/-- The state of the process: the records that have been made, the keys of `sessions` in the
order of the map, the timers that are pending, the sockets that are not open any more, and
what has been sent and done. -/
structure Hub where
  recs : Id → Option Rec := fun _ ↦ none
  sessions : List Id := []
  timers : List Timer := []
  nextHandle : Nat := 0
  now : Millis := 0
  closed : List Socket := []
  sent : List Sent := []
  checks : List Check := []
  ending : List Ending := []
  effects : List (Id × Effect) := []

structure HubError where
  code : String
  wsCode : Nat
  message : String

structure Owner where
  userId : Id
  orgId : Id
deriving DecidableEq

/-! ## Lookups -/

namespace Hub

def get (s : Hub) (sessionId : Id) : Option Rec :=
  if sessionId ∈ s.sessions then s.recs sessionId else none

def has (s : Hub) (sessionId : Id) : Bool := (s.get sessionId).any fun rec ↦ !rec.ended

def requireOwned (s : Hub) (sessionId : Id) (owner : Owner) : Except HubError Rec :=
  match s.get sessionId with
  | none => .error ⟨"SESSION_NOT_FOUND", 4404, "Session not found"⟩
  | some rec =>
    if rec.ended then .error ⟨"SESSION_NOT_FOUND", 4404, "Session not found"⟩
    else if rec.userId ≠ owner.userId ∨ rec.orgId ≠ owner.orgId then
      .error ⟨"SESSION_FORBIDDEN", 4403, "You do not have access to this session"⟩
    else .ok rec

/-- The sessions that `list` returns, before they are sorted. -/
def list (s : Hub) (owner : Owner) : List Id :=
  s.sessions.filter fun id ↦ (s.recs id).any fun rec ↦
    !rec.ended && (rec.userId = owner.userId ∧ rec.orgId = owner.orgId)

/-! ## What the steps are made of -/

/-- The fields of a record are assigned. -/
def assign (s : Hub) (sessionId : Id) (f : Rec → Rec) : Hub :=
  { s with recs := Function.update s.recs sessionId ((s.recs sessionId).map f) }

def fanout (s : Hub) (sessionId : Id) (sockets : List Socket) (frame : Frame) : Hub :=
  { s with sent := s.sent ++
      (sockets.filter (· ∉ s.closed)).map fun socket ↦ ⟨socket, sessionId, frame⟩ }

/-- `clearTimeout(rec.detachTimer)`, and the field is emptied. -/
def clearDetachTimer (s : Hub) (sessionId : Id) (rec : Rec) : Hub :=
  match rec.detachTimer with
  | none => s
  | some timer =>
    { s.assign sessionId fun rec ↦ { rec with detachTimer := none } with
      timers := s.timers.filter (· ≠ timer) }

/-- `rec.sockets.add(ws)` -/
def addTo (ws : Socket) (sockets : List Socket) : List Socket :=
  if ws ∈ sockets then sockets else sockets ++ [ws]

/-! ## Sockets -/

/-- `create` with an id that `sessionService.create` has made. -/
def create (s : Hub) (sessionId : Id) (owner : Owner) (recording : Bool)
    (accessRequestId : Option Id) (accessRequestExpiresAt : Option Millis) : Hub :=
  { s with
    sessions := s.sessions ++ [sessionId]
    recs := Function.update s.recs sessionId (some
      { orgId := owner.orgId
        userId := owner.userId
        recordingWriter := if recording then some [] else none
        accessRequestId
        accessRequestExpiresAt
        startedAt := s.now
        lastActivityAt := s.now }) }

/-- `onData` of `wireStream`, which holds the record. -/
def onData (s : Hub) (sessionId : Id) (rec : Rec) (chunk : Chunk) : Hub :=
  (s.assign sessionId fun rec ↦
    { rec with
      lastActivityAt := s.now
      buffer := rec.buffer.push chunk
      recordingWriter := rec.recordingWriter.map (· ++ [chunk]) }).fanout
    sessionId rec.sockets (.data chunk)

def addSocket (s : Hub) (sessionId : Id) (ws : Socket) : Hub :=
  match s.get sessionId with
  | none => s
  | some rec =>
    if rec.ended then s
    else (s.clearDetachTimer sessionId rec).assign sessionId fun rec ↦
      { rec with sockets := addTo ws rec.sockets, detachedAt := none }

def attach (s : Hub) (sessionId : Id) (ws : Socket) (owner : Owner) : Except HubError Hub :=
  match s.requireOwned sessionId owner with
  | .error e => .error e
  | .ok rec =>
    let joined := (s.clearDetachTimer sessionId rec).assign sessionId fun rec ↦
      { rec with
        sockets := addTo ws rec.sockets
        detachedAt := none
        lastActivityAt := s.now }
    let replay := rec.buffer.toBuffer
    let greeted := joined.fanout sessionId [ws] (.attached sessionId replay.length)
    .ok (if replay.length = 0 then greeted else greeted.fanout sessionId [ws] (.data replay))

/-- `detach`, with `DETACH_TTL_SECONDS`. -/
def detach (s : Hub) (ttl : Nat) (sessionId : Id) (ws : Socket) : Hub :=
  match s.get sessionId with
  | none => s
  | some rec =>
    if ws ∉ rec.sockets then s
    else
      let left := s.assign sessionId fun rec ↦ { rec with sockets := rec.sockets.erase ws }
      if rec.sockets.erase ws = [] ∧ rec.ended = false then
        let timer : Timer := ⟨s.nextHandle, s.now + ttl * 1000, sessionId⟩
        let cleared := left.clearDetachTimer sessionId rec
        { cleared.assign sessionId fun rec ↦
            { rec with detachedAt := some s.now, detachTimer := some timer } with
          timers := cleared.timers ++ [timer]
          nextHandle := s.nextHandle + 1 }
      else left

/-! ## The end of a session -/

/-- `TERMINATED_REASONS` -/
def terminatedReasons : List String := ["terminated", "error"]

def statusFor (reason : String) : SessionStatus :=
  if reason ∈ terminatedReasons then .terminated else .ended

/-- `{ endReason: reason, ...extraMetadata }` -/
def metadataPatch (reason : String) (extraMetadata : List (String × String)) :
    List (String × String) :=
  (if (extraMetadata.lookup "endReason").isSome then [] else [("endReason", reason)]) ++ extraMetadata

/-- `end`, up to the first `await`.  What closing the stream and the client calls back finds
the session gone. -/
def endSession (s : Hub) (sessionId : Id) (reason : String)
    (extraMetadata : List (String × String) := []) : Hub :=
  match s.get sessionId with
  | none => s
  | some rec =>
    if rec.ended then s
    else
      let marked := s.assign sessionId fun rec ↦ { rec with ended := true }
      let cleared := marked.clearDetachTimer sessionId rec
      let deleted := { cleared with sessions := cleared.sessions.filter (· ≠ sessionId) }
      let told := deleted.fanout sessionId rec.sockets (.ended reason)
      let left := ({ told with closed := told.closed ++ rec.sockets }).assign sessionId fun rec ↦
        { rec with sockets := [] }
      if rec.recordingWriter.isSome then
        { left with
          effects := left.effects ++ [(sessionId, .closeRecording)]
          ending := left.ending ++ [⟨sessionId, reason, extraMetadata, .upload⟩] }
      else { left with ending := left.ending ++ [⟨sessionId, reason, extraMetadata, .row⟩] }

/-- What `end` does when the answer comes that it waits for; what fails is logged. -/
def resume (s : Hub) (i : Nat) (ok : Bool) : Option Hub :=
  match s.ending[i]? with
  | none => none
  | some e =>
    let released := s.assign e.sessionId fun rec ↦ { rec with recordingWriter := none }
    match e.phase with
    | .upload =>
      if ok then some { s with ending := s.ending.set i { e with phase := .recordingKey } }
      else some { released with ending := s.ending.set i { e with phase := .row } }
    | .recordingKey =>
      some { released with
        ending := s.ending.set i { e with phase := .row }
        effects := s.effects ++ if ok then [(e.sessionId, .saveRecordingKey)] else [] }
    | .row =>
      some { s with
        ending := s.ending.eraseIdx i
        effects := s.effects ++
          (if ok then [(e.sessionId,
            .closeRow (statusFor e.reason) (metadataPatch e.reason e.extraMetadata))] else []) ++
          [(e.sessionId, .audit e.reason)] }

def closeOwned (s : Hub) (sessionId : Id) (owner : Owner) : Except HubError Hub :=
  match s.requireOwned sessionId owner with
  | .error e => .error e
  | .ok _ => .ok (s.endSession sessionId "closed")

/-- The callback of a detach timer. -/
def fire (s : Hub) (timer : Timer) : Hub :=
  ({ s with timers := s.timers.filter (· ≠ timer) }).endSession timer.sessionId "detached_timeout"

/-- The loop of `checkExpiries` over the sessions. -/
def sweep (now : Millis) : List Id → Hub × List Id → Hub × List Id
  | [], r => r
  | id :: ids, (s, withAr) =>
    match s.recs id with
    | none => sweep now ids (s, withAr)
    | some rec =>
      if rec.ended then sweep now ids (s, withAr)
      else if rec.accessRequestExpiresAt.any (· ≤ now) then
        sweep now ids (s.endSession id "expired", withAr)
      else if rec.accessRequestId.isSome then sweep now ids (s, withAr ++ [id])
      else sweep now ids (s, withAr)

/-- `checkExpiries`, up to the query. -/
def checkExpiries (s : Hub) : Hub :=
  let swept := sweep s.now s.sessions (s, [])
  if swept.2 = [] then swept.1
  else { swept.1 with checks := swept.1.checks ++ [⟨s.now, swept.2⟩] }

/-- What the query of `checkExpiries` selects. -/
structure Ar where
  id : Id
  status : AccessRequestStatus
  expiresAt : Option Millis

/-- One round of the loop of `checkExpiries` over the access requests. -/
def judge (now : Millis) (ars : List Ar) (s : Hub) (id : Id) : Hub :=
  match s.recs id with
  | none => s
  | some rec =>
    if rec.ended then s
    else match rec.accessRequestId.bind fun arId ↦ ars.find? fun ar ↦ ar.id = arId with
      | none => s
      | some ar =>
        if ar.status = .revoked ∨ ar.status = .denied ∨ ar.status = .expired then
          s.endSession id "expired"
        else match ar.expiresAt with
          | none => s
          | some expiresAt =>
            let refreshed := s.assign id fun rec ↦
              { rec with accessRequestExpiresAt := some expiresAt }
            if expiresAt ≤ now then refreshed.endSession id "expired" else refreshed

/-- `checkExpiries` with the rows that the query has found; without them it gives up. -/
def checked (s : Hub) (i : Nat) (ars : Option (List Ar)) : Option Hub :=
  (s.checks[i]?).map fun check ↦
    let rest := { s with checks := s.checks.eraseIdx i }
    match ars with
    | none => rest
    | some ars => check.withAr.foldl (judge check.now ars) rest

def endAllForUser (s : Hub) (userId : Id) (orgId : Option Id) (reason : String) : Hub :=
  (s.sessions.filter fun id ↦ (s.recs id).any fun rec ↦
    !rec.ended && rec.userId = userId && orgId.all fun orgId ↦ rec.orgId = orgId).foldl
    (fun s id ↦ s.endSession id reason) s

def endAll (s : Hub) (reason : String) : Hub :=
  s.sessions.foldl (fun s id ↦ s.endSession id reason) s

/-! ## What the functions do -/

variable {s t : Hub} {j : Id} {rec rec' : Rec} {ws : Socket} {reason : String}
  {extra : List (String × String)}

/-- A session that lookups find. -/
structure Live (s : Hub) (id : Id) (rec : Rec) : Prop where
  made : s.recs id = some rec
  listed : id ∈ s.sessions
  open_ : rec.ended = false

theorem get_eq_some : s.get j = some rec ↔ j ∈ s.sessions ∧ s.recs j = some rec := by
  unfold get
  split <;> simp [*]

theorem assign_eq {f : Rec → Rec} (hrec : s.recs j = some rec) :
    s.assign j f = { s with recs := Function.update s.recs j (some (f rec)) } := by
  rw [assign, hrec]
  rfl

theorem clearDetachTimer_eq (rec rec' : Rec) (hrec : s.recs j = some rec')
    (h : rec'.detachTimer = rec.detachTimer) :
    s.clearDetachTimer j rec =
      { s with
        recs := Function.update s.recs j (some { rec' with detachTimer := none })
        timers := s.timers.filter fun timer ↦ some timer ≠ rec.detachTimer } := by
  unfold clearDetachTimer
  cases htimer : rec.detachTimer with
  | none =>
    have hself : { rec' with detachTimer := none } = rec' := by
      rw [← h.trans htimer]
    rw [hself, ← hrec, Function.update_eq_self]
    simp
  | some timer =>
    dsimp only
    rw [assign_eq hrec]
    simp

/-- What `get` and the flag let through is all that is live. -/
theorem not_live_of_get (h : s.get j = none) (rec : Rec) : ¬ s.Live j rec := by
  intro hlive
  rw [get_eq_some.mpr ⟨hlive.listed, hlive.made⟩] at h
  cases h

theorem not_live_of_ended (h : s.get j = some rec') (hended : rec'.ended = true) (rec : Rec) :
    ¬ s.Live j rec := by
  intro hlive
  obtain rfl := Option.some.inj (hlive.made.symm.trans (get_eq_some.mp h).2)
  exact Bool.false_ne_true (hlive.open_.symm.trans hended)

theorem addSocket_cases (s : Hub) (j : Id) (ws : Socket) :
    (∀ rec, ¬ s.Live j rec) ∧ s.addSocket j ws = s ∨ ∃ rec, s.Live j rec ∧ s.addSocket j ws =
      { s with
        recs := Function.update s.recs j (some
          { rec with sockets := addTo ws rec.sockets, detachedAt := none, detachTimer := none })
        timers := s.timers.filter fun timer ↦ some timer ≠ rec.detachTimer } := by
  unfold addSocket
  split
  · rename_i hget
    exact .inl ⟨not_live_of_get hget, rfl⟩
  · rename_i rec hget
    obtain ⟨hlisted, hrec⟩ := get_eq_some.mp hget
    split
    · rename_i hended
      exact .inl ⟨not_live_of_ended hget hended, rfl⟩
    · rename_i hopen
      refine .inr ⟨rec, ⟨hrec, hlisted, by simpa using hopen⟩, ?_⟩
      rw [clearDetachTimer_eq rec rec hrec rfl, assign_eq (Function.update_self ..)]
      simp [Function.update_idem]

/-- What `requireOwned` lets through is found and belongs to the caller. -/
theorem live_of_requireOwned {owner : Owner} (h : s.requireOwned j owner = .ok rec) :
    s.Live j rec ∧ rec.userId = owner.userId ∧ rec.orgId = owner.orgId := by
  unfold requireOwned at h
  split at h
  · cases h
  · rename_i rec' hget
    obtain ⟨hlisted, hrec⟩ := get_eq_some.mp hget
    split at h
    · cases h
    · rename_i hopen
      split at h
      · cases h
      · rename_i howner
        obtain rfl := Except.ok.inj h
        rw [not_or, not_not, not_not] at howner
        exact ⟨⟨hrec, hlisted, by simpa using hopen⟩, howner⟩

theorem attach_ok {owner : Owner} (h : s.attach j ws owner = .ok t) :
    ∃ rec greeting, s.requireOwned j owner = .ok rec ∧
      greeting = .attached j rec.buffer.toBuffer.length ::
        (if rec.buffer.toBuffer.length = 0 then [] else [Frame.data rec.buffer.toBuffer]) ∧
      t = { s with
        recs := Function.update s.recs j (some
          { rec with
            sockets := addTo ws rec.sockets, detachedAt := none, detachTimer := none
            lastActivityAt := s.now })
        timers := s.timers.filter fun timer ↦ some timer ≠ rec.detachTimer
        sent := s.sent ++ if ws ∈ s.closed then [] else greeting.map fun frame ↦ ⟨ws, j, frame⟩ } := by
  unfold attach at h
  split at h
  · cases h
  · rename_i rec howned
    obtain ⟨hlive, -⟩ := live_of_requireOwned howned
    refine ⟨rec, _, howned, rfl, ?_⟩
    obtain rfl := Except.ok.inj h
    rw [clearDetachTimer_eq rec rec hlive.made rfl, assign_eq (Function.update_self ..), Function.update_idem]
    dsimp only [fanout]
    by_cases hclosed : ws ∈ s.closed <;> split <;> simp [hclosed]

theorem detach_cases (s : Hub) (ttl : Nat) (j : Id) (ws : Socket) :
    (∀ rec, s.Live j rec → ws ∉ rec.sockets) ∧ s.detach ttl j ws = s ∨
    ∃ rec, s.recs j = some rec ∧ j ∈ s.sessions ∧ ws ∈ rec.sockets ∧
      ((rec.sockets.erase ws ≠ [] ∨ rec.ended = true) ∧ s.detach ttl j ws =
          { s with
            recs := Function.update s.recs j (some { rec with sockets := rec.sockets.erase ws }) } ∨
        rec.sockets.erase ws = [] ∧ rec.ended = false ∧ s.detach ttl j ws =
          { s with
            recs := Function.update s.recs j (some
              { rec with
                sockets := []
                detachedAt := some s.now
                detachTimer := some ⟨s.nextHandle, s.now + ttl * 1000, j⟩ })
            timers := (s.timers.filter fun timer ↦ some timer ≠ rec.detachTimer) ++
              [⟨s.nextHandle, s.now + ttl * 1000, j⟩]
            nextHandle := s.nextHandle + 1 }) := by
  unfold detach
  split
  · rename_i hget
    exact .inl ⟨fun rec hlive ↦ absurd hlive (not_live_of_get hget rec), rfl⟩
  · rename_i rec hget
    obtain ⟨hlisted, hrec⟩ := get_eq_some.mp hget
    split
    · rename_i hws
      refine .inl ⟨fun rec' hlive ↦ ?_, rfl⟩
      obtain rfl := Option.some.inj (hlive.made.symm.trans hrec)
      exact hws
    · rename_i hws
      refine .inr ⟨rec, hrec, hlisted, not_not.mp hws, ?_⟩
      rw [assign_eq hrec]
      dsimp only
      split
      · rename_i hlast
        refine .inr ⟨hlast.1, hlast.2, ?_⟩
        rw [clearDetachTimer_eq rec { rec with sockets := rec.sockets.erase ws }
          (Function.update_self ..) rfl, assign_eq (Function.update_self ..)]
        simp [Function.update_idem, hlast.1]
      · rename_i hmore
        refine .inl ⟨?_, rfl⟩
        rw [not_and_or] at hmore
        exact hmore.imp_right (by simp)

/-- What `end` is waiting for first, and what it has done by then. -/
def firstOf (rec : Rec) (id : Id) : Phase × List (Id × Effect) :=
  if rec.recordingWriter.isSome then (.upload, [(id, .closeRecording)]) else (.row, [])

theorem endSession_cases (s : Hub) (j : Id) (reason : String) (extra : List (String × String)) :
    (∀ rec, ¬ s.Live j rec) ∧ s.endSession j reason extra = s ∨ ∃ rec, s.Live j rec ∧ s.endSession j reason extra =
      { s with
        recs := Function.update s.recs j (some
          { rec with sockets := [], ended := true, detachTimer := none })
        sessions := s.sessions.filter (· ≠ j)
        timers := s.timers.filter fun timer ↦ some timer ≠ rec.detachTimer
        closed := s.closed ++ rec.sockets
        sent := s.sent ++ (rec.sockets.filter (· ∉ s.closed)).map fun ws ↦ ⟨ws, j, .ended reason⟩
        ending := s.ending ++ [⟨j, reason, extra, (firstOf rec j).1⟩]
        effects := s.effects ++ (firstOf rec j).2 } := by
  unfold endSession
  split
  · rename_i hget
    exact .inl ⟨not_live_of_get hget, rfl⟩
  · rename_i rec hget
    obtain ⟨hlisted, hrec⟩ := get_eq_some.mp hget
    split
    · rename_i hended
      exact .inl ⟨not_live_of_ended hget hended, rfl⟩
    · rename_i hopen
      refine .inr ⟨rec, ⟨hrec, hlisted, by simpa using hopen⟩, ?_⟩
      rw [assign_eq hrec]
      dsimp only
      rw [clearDetachTimer_eq rec { rec with ended := true } (Function.update_self ..) rfl]
      dsimp only [fanout]
      rw [assign_eq (Function.update_self ..)]
      unfold firstOf
      split <;> simp [Function.update_idem]

/-! ### The loops -/

/-- A relation between the hub before and after that the loops over several sessions have if
one round of theirs has. -/
structure Chained (R : Hub → Hub → Prop) : Prop where
  refl : ∀ s, R s s
  trans : ∀ {s t u}, R s t → R t u → R s u
  endSession : ∀ s j reason extra, R s (s.endSession j reason extra)
  refresh : ∀ (s : Hub) j expiresAt,
    R s (s.assign j fun rec ↦ { rec with accessRequestExpiresAt := some expiresAt })
  checks : ∀ (s : Hub) checks, R s { s with checks }

namespace Chained

variable {R : Hub → Hub → Prop}

theorem foldl (h : Chained R) {f : Hub → Id → Hub} (hf : ∀ s j, R s (f s j)) (s : Hub) (ids : List Id) :
    R s (ids.foldl f s) := by
  induction ids generalizing s with
  | nil => exact h.refl s
  | cons j ids ih => exact h.trans (hf s j) (ih (f s j))

theorem sweep (h : Chained R) (s : Hub) (now : Millis) (ids withAr : List Id) :
    R s (Hub.sweep now ids (s, withAr)).1 := by
  induction ids generalizing s withAr with
  | nil => exact h.refl s
  | cons j ids ih =>
    unfold Hub.sweep
    split
    · exact ih s withAr
    · split
      · exact ih s withAr
      · split
        · exact h.trans (h.endSession s j "expired" []) (ih _ withAr)
        · split
          · exact ih s (withAr ++ [j])
          · exact ih s withAr

theorem checkExpiries (h : Chained R) (s : Hub) : R s s.checkExpiries := by
  have hsweep := h.sweep s s.now s.sessions []
  unfold Hub.checkExpiries
  dsimp only
  split
  · exact hsweep
  · exact h.trans hsweep (h.checks _ _)

theorem judge (h : Chained R) (now : Millis) (ars : List Ar) (s : Hub) (j : Id) :
    R s (Hub.judge now ars s j) := by
  unfold Hub.judge
  split
  · exact h.refl s
  · split
    · exact h.refl s
    · split
      · exact h.refl s
      · split
        · exact h.endSession s j _ _
        · split
          · exact h.refl s
          · rename_i expiresAt _
            have hrefresh := h.refresh s j expiresAt
            dsimp only
            split
            · exact h.trans hrefresh (h.endSession _ j _ _)
            · exact hrefresh

theorem checked (h : Chained R) {i : Nat} {ars : Option (List Ar)} (ht : s.checked i ars = some t) :
    R s t := by
  obtain ⟨check, -, rfl⟩ := Option.map_eq_some_iff.mp ht
  cases ars with
  | none => exact h.checks s _
  | some ars => exact h.trans (h.checks s _) (h.foldl (h.judge check.now ars) _ check.withAr)

theorem endAllForUser (h : Chained R) (s : Hub) (userId : Id) (orgId : Option Id) (reason : String) :
    R s (s.endAllForUser userId orgId reason) :=
  h.foldl (fun s j ↦ h.endSession s j reason []) s _

theorem endAll (h : Chained R) (s : Hub) (reason : String) : R s (s.endAll reason) :=
  h.foldl (fun s j ↦ h.endSession s j reason []) s _

theorem closeOwned (h : Chained R) {owner : Owner} (ht : s.closeOwned j owner = .ok t) : R s t := by
  unfold Hub.closeOwned at ht
  split at ht
  · cases ht
  · obtain rfl := Except.ok.inj ht
    exact h.endSession s j _ _

end Chained

end Hub

/-! ## Runs -/

/-- What can happen.  A stream or a client that closes or fails, a user who closes the
terminal and an administrator who terminates it all call `end` with a reason of theirs. -/
inductive Event where
  | create (sessionId : Id) (owner : Owner) (recording : Bool) (accessRequestId : Option Id)
      (accessRequestExpiresAt : Option Millis)
  | data (sessionId : Id) (chunk : Chunk)
  | addSocket (sessionId : Id) (ws : Socket)
  | attach (sessionId : Id) (ws : Socket) (owner : Owner)
  | detach (sessionId : Id) (ws : Socket)
  | endSession (sessionId : Id) (reason : String) (extraMetadata : List (String × String))
  | closeOwned (sessionId : Id) (owner : Owner)
  | resume (i : Nat) (ok : Bool)
  | fire (timer : Timer)
  | checkExpiries
  | checked (i : Nat) (ars : Option (List Hub.Ar))
  | endAllForUser (userId : Id) (orgId : Option Id) (reason : String)
  | endAll (reason : String)
  /-- Time passes. -/
  | tick (ms : Nat)
  /-- A socket closes or fails. -/
  | close (ws : Socket)

/-- The hub after an event; `none` if it cannot happen.  What throws changes nothing. -/
def step (ttl : Nat) (s : Hub) : Event → Option Hub
  | .create sessionId owner recording accessRequestId accessRequestExpiresAt =>
    if s.recs sessionId = none then
      some (s.create sessionId owner recording accessRequestId accessRequestExpiresAt)
    else none
  | .data sessionId chunk => (s.recs sessionId).map fun rec ↦ s.onData sessionId rec chunk
  | .addSocket sessionId ws => some (s.addSocket sessionId ws)
  | .attach sessionId ws owner =>
    match s.attach sessionId ws owner with
    | .ok t => some t
    | .error _ => some s
  | .detach sessionId ws => some (s.detach ttl sessionId ws)
  | .endSession sessionId reason extraMetadata => some (s.endSession sessionId reason extraMetadata)
  | .closeOwned sessionId owner =>
    match s.closeOwned sessionId owner with
    | .ok t => some t
    | .error _ => some s
  | .resume i ok => s.resume i ok
  | .fire timer => if timer ∈ s.timers ∧ timer.due ≤ s.now then some (s.fire timer) else none
  | .checkExpiries => some s.checkExpiries
  | .checked i ars => s.checked i ars
  | .endAllForUser userId orgId reason => some (s.endAllForUser userId orgId reason)
  | .endAll reason => some (s.endAll reason)
  | .tick ms => some { s with now := s.now + ms }
  | .close ws => some { s with closed := s.closed ++ [ws] }

end Shellius.Terminal
