import Shellius.Crypto.Recording
import Shellius.Schema

/-!
# RDP recordings

`rdpRecordingService.ingestFile`: guacd writes what is seen in a tunnel to a file, and sweeps take
the file into the object storage and delete it.  A sweep takes a file that nobody has written to
for a while and whose session has ended; that the session has ended does not say that the tunnel
has closed, and that nothing was written for a while does not say that guacd has closed the file.

Here one recording is followed, with any number of sweeps at once, each of which may fail at any
step.  `Kept` is what should be true of it at all times, and `recordings_kept` says that it is if no
sweep reads to the end of the file, or deletes it, too early (`Timely`).
-/

namespace Shellius.Rdp.Recordings

open Lib Crypto

/-! ## Encryption -/

/-- `createEncryptStream` and its converse: what was written in pieces is read in pieces. -/
structure Codec where
  Drawn : Type
  encrypt : Drawn → List Bytes → Bytes
  decrypt : List Bytes → Bytes × Option String
  decrypt_encrypt : ∀ d chunks pieces, pieces.flatten = encrypt d chunks →
    decrypt pieces = (chunks.flatten, none)

/-- The codec of `recordingCrypto`, for a cipher that accepts a text with its tag only. -/
def recordingCrypto (P : Primitives) (config : Config) (current : Bytes)
    (htag : ∀ k n c, (P.gcm.tag k n c).length = 16)
    (hcurrent : getCurrentKeyBuffer P config = .ok current) (hdistinct : Distinct P config)
    (hk : current ∈ keys P config) (h : P.gcm.Ideal fun _ _ _ ↦ True) : Codec where
  Drawn := Recording.Drawn
  encrypt d chunks := ((Recording.encrypted P config d chunks).toOption.map Prod.fst).getD []
  decrypt := Recording.decrypted P config
  decrypt_encrypt := by
    intro d chunks pieces hpieces
    rw [Recording.encrypted_eq hcurrent (htag _ _ _)] at hpieces
    exact Recording.decrypted_sealed h hdistinct hk htag trivial trivial hpieces

/-! ## The recording -/

/-- `Session`, with the columns that a sweep reads. -/
structure Session where
  id : Id
  orgId : Id
  startedAt : Millis
  endedAt : Option Millis := none
  recordingKey : Option String := none

def Session.key (row : Session) : String := "sessions/" ++ row.orgId ++ "/" ++ row.id ++ ".guac"

/-- What was so when the file was deleted. -/
structure Removal where
  now : Millis
  closed : Bool
  empty : Bool
  claimed : Bool

/-- One recording: the tunnel, the file that guacd writes, the session that claims it, and the
bucket. -/
structure Store where
  now : Millis
  closedAt : Option Millis := none
  finished : Bool := false
  /-- All that guacd has written; the file has it as long as it is there. -/
  content : Bytes := []
  createdAt : Millis
  mtime : Millis
  session : Option Session := none
  bucket : String → Option Bytes := fun _ ↦ none
  removed : Option Removal := none

/-- The times the service is configured with. -/
structure Times where
  /-- `STABLE_AFTER_MS` -/
  stableAfterMs : Int := 30 * 1000
  /-- `ORPHAN_GRACE_MS` -/
  orphanGraceMs : Int := 24 * 60 * 60 * 1000
  /-- `STALE_SESSION_HOURS`, in milliseconds -/
  staleMs : Int := 24 * 60 * 60 * 1000

/-! ## Sweeps -/

section

variable (times : Times) (codec : Codec)

/-- Where `ingestFile` is. -/
inductive Call where
  | /-- It looks at the file; `now` is when the sweep began. -/
    stat (now : Millis)
  | /-- The file has been left alone for a while and is not empty; it looks for its session. -/
    lookup (now mtime : Millis)
  | opening (row : Session)
  | reading (row : Session) (d : codec.Drawn) (chunks : List Bytes)
  | /-- The file has been read to its end, and the upload is under way. -/
    uploading (row : Session) (object : Bytes)
  | attaching (row : Session)
  | unlinkEmpty
  | unlinkOrphan
  | unlinkStored (row : Session)

/-- What happens next: the call that is awaited returns, what is drawn for the encryption, or how
many bytes are read. -/
inductive Command where
  | next
  | draw (d : codec.Drawn)
  | read (n : Nat)

/-- The file is deleted. -/
def unlink (s : Store) : Store :=
  match s.removed with
  | some _ => s
  | none => { s with
      removed := some ⟨s.now, s.closedAt.isSome, s.content.isEmpty, s.session.isSome⟩ }

/-- `storage.putObjectStream`, when it is over. -/
def upload (s : Store) (key : String) (object : Bytes) : Store :=
  { s with bucket := Function.update s.bucket key (some object) }

/-- `db.session.update({ where: { id }, data: { recordingKey } })` -/
def attach (s : Store) (row : Session) : Store :=
  { s with session := s.session.map fun r ↦
      if r.id = row.id then { r with recordingKey := some row.key } else r }

def rest (s : Store) (chunks : List Bytes) : Bytes := s.content.drop chunks.flatten.length

/-- `ingestFile` -/
def act (s : Store) : Call codec → Command codec → Option (Store × Option (Call codec))
  | .stat now, .next =>
    -- no sweep begins in the future
    if s.now < now then none
    else if s.removed.isSome then some (s, none)
    else if now - s.mtime < times.stableAfterMs then some (s, none)
    else if s.content = [] then some (s, some .unlinkEmpty)
    else some (s, some (.lookup now s.mtime))
  | .lookup now mtime, .next =>
    match s.session with
    | none =>
      if now - mtime < times.orphanGraceMs then some (s, none)
      else some (s, some .unlinkOrphan)
    | some row => if row.endedAt = none then some (s, none) else some (s, some (.opening row))
  | .opening row, .draw d =>
    if s.removed.isSome then some (s, none) else some (s, some (.reading row d []))
  | .reading row d chunks, .read n =>
    if rest s chunks = [] then none
    else some (s, some (.reading row d (chunks ++ [(rest s chunks).take (n + 1)])))
  | .reading row d chunks, .next =>
    if rest s chunks = [] then some (s, some (.uploading row (codec.encrypt d chunks)))
    else none
  | .uploading row object, .next =>
    some (upload s row.key object, some (.attaching row))
  | .attaching row, .next =>
    some (attach s row, some (.unlinkStored row))
  | .unlinkEmpty, .next | .unlinkOrphan, .next | .unlinkStored _, .next => some (unlink s, none)
  | _, _ => none

/-! ## What happens meanwhile -/

/-- Why a session ends. -/
inductive Cause where
  | /-- The handler of `close`. -/
    tunnelClosed
  | terminated
  | /-- `markStaleSessions` -/
    stale

/-- `sessionService.end`, for a cause. -/
def endSession (s : Store) (cause : Cause) (row : Session) : Option Store :=
  let possible : Bool := match cause with
    | .tunnelClosed => s.closedAt.isSome
    | .terminated => true
    | .stale => row.endedAt.isNone && decide (row.startedAt < s.now - times.staleMs)
  if possible then some { s with session := some { row with endedAt := some s.now } } else none

inductive Change where
  | time (now : Millis)
  | write (bytes : Bytes)
  | closeTunnel
  | finish
  | /-- The handler of `open` creates the session. -/
    claim (id orgId : Id)
  | ends (cause : Cause)

/-- The tunnel, guacd, and the writers of the session.  guacd writes while it has the file open,
and has closed it when `stableAfterMs` have passed since the tunnel closed. -/
def env (s : Store) : Change → Option Store
  | .time now =>
    if s.now ≤ now ∧ (s.finished = true ∨ ∀ t ∈ s.closedAt, now ≤ t + times.stableAfterMs) then
      some { s with now }
    else none
  | .write bytes =>
    if s.finished = true then none
    else some { s with content := s.content ++ bytes, mtime := s.now }
  | .closeTunnel => if s.closedAt = none then some { s with closedAt := some s.now } else none
  | .finish => if s.closedAt = none then none else some { s with finished := true }
  | .claim id orgId =>
    if s.session = none then some { s with session := some { id, orgId, startedAt := s.now } }
    else none
  | .ends cause => s.session.bind (endSession times s cause)

/-- Sweeps come to the file at any time, each with the time at which it began. -/
def program : Program Store Millis (Call codec) (Command codec) Change where
  start now := .stat now
  act _ := act times codec
  env := env times

end

/-! ## What should be true -/

section

variable (times : Times) (codec : Codec)

def Whole (s : Store) (object : Bytes) : Prop :=
  ∀ pieces : List Bytes, pieces.flatten = object → codec.decrypt pieces = (s.content, none)

/-- The session points to an object that has every byte that was ever written. -/
def Stored (s : Store) : Prop :=
  ∃ row ∈ s.session, ∃ object,
    row.recordingKey = some row.key ∧ s.bucket row.key = some object ∧ Whole codec s object

/-- The file has been deleted only if the recording is stored, or it was empty and its tunnel had
closed, or no session had claimed it for long enough. -/
def Kept (s : Store) : Prop :=
  ∀ r ∈ s.removed, Stored codec s ∨ (r.closed = true ∧ r.empty = true) ∨
    (r.claimed = false ∧ s.createdAt + times.orphanGraceMs ≤ r.now)

/-- A sweep that reads to the end of the file does so once guacd has closed it; one that deletes
the file because it was empty finds it still empty and the tunnel closed, and one that deletes it
because no session claimed it finds that none has since. -/
def timelyCall (s : Store) : Call codec → Bool
  | .reading .. => s.finished
  | .unlinkEmpty => s.removed.isSome || s.closedAt.isSome && s.content.isEmpty
  | .unlinkOrphan => s.removed.isSome || s.session.isNone
  | _ => true

/-- No sweep is too early. -/
def timely (p : Pool Store (Call codec)) : Event Millis (Command codec) Change → Bool
  | .act i .next => (p.calls i).all (timelyCall codec p.store)
  | _ => true

/-! ## The invariant -/

def Owns (s : Store) (row : Session) : Prop :=
  ∃ r ∈ s.session, r.id = row.id ∧ r.orgId = row.orgId

def Knows (s : Store) : Call codec → Prop
  | .stat _ | .unlinkEmpty => True
  | .lookup now mtime => now ≤ s.now ∧ s.createdAt ≤ mtime
  | .opening row => Owns s row
  | .reading row _ chunks => Owns s row ∧ chunks.flatten <+: s.content
  | .uploading row object => Owns s row ∧ s.finished = true ∧ Whole codec s object
  | .attaching row => Owns s row ∧ ∃ object, s.bucket row.key = some object
  | .unlinkStored _ => ∃ r ∈ s.session, r.recordingKey = some r.key
  | .unlinkOrphan => s.createdAt + times.orphanGraceMs ≤ s.now

structure Inv (s : Store) : Prop where
  created : s.createdAt ≤ s.mtime
  mtime_le : s.mtime ≤ s.now
  /-- What is in the bucket is whole, and will be. -/
  bucket : ∀ key object, s.bucket key = some object → s.finished = true ∧ Whole codec s object
  attached : ∀ row ∈ s.session, ∀ key ∈ row.recordingKey,
    key = row.key ∧ ∃ object, s.bucket row.key = some object
  removed : ∀ r ∈ s.removed, (∃ row ∈ s.session, row.recordingKey = some row.key) ∨
    (r.closed = true ∧ r.empty = true) ∨
      (r.claimed = false ∧ s.createdAt + times.orphanGraceMs ≤ r.now)

end

section

variable {times : Times} {codec : Codec} {s s' : Store} {row : Session} {k : Call codec}

theorem Inv.kept (h : Inv times codec s) : Kept times codec s := by
  intro r hr
  obtain ⟨row, hrow, hkey⟩ | hrest := h.removed r hr
  · obtain ⟨-, object, hobject⟩ := h.attached row hrow _ hkey
    exact .inl ⟨row, hrow, object, hkey, hobject, (h.bucket _ _ hobject).2⟩
  · exact .inr hrest

theorem Owns.key_eq {r : Session} (h : Owns s row) (hr : r ∈ s.session) : r.key = row.key := by
  obtain ⟨r', hr', hid, horg⟩ := h
  obtain rfl : r' = r := Option.some.inj (hr'.symm.trans hr)
  unfold Session.key
  rw [hid, horg]

/-- What happens to the recording between the steps of the sweeps. -/
structure Grows (s s' : Store) : Prop where
  now_le : s.now ≤ s'.now
  createdAt : s'.createdAt = s.createdAt
  content : s.content <+: s'.content
  finished : s.finished = true → s'.finished = true ∧ s'.content = s.content
  session : ∀ row ∈ s.session, ∃ row' ∈ s'.session, row'.id = row.id ∧ row'.orgId = row.orgId ∧
    (row.recordingKey = some row.key → row'.recordingKey = some row'.key)
  bucket : ∀ key object, s.bucket key = some object → ∃ object', s'.bucket key = some object'

theorem Grows.refl (s : Store) : Grows s s where
  now_le := Int.le_refl _
  createdAt := rfl
  content := List.prefix_rfl
  finished h := ⟨h, rfl⟩
  session row hrow := ⟨row, hrow, rfl, rfl, id⟩
  bucket _ object h := ⟨object, h⟩

theorem Grows.owns (h : Grows s s') (hrow : Owns s row) : Owns s' row := by
  obtain ⟨r, hr, hid, horg⟩ := hrow
  obtain ⟨r', hr', hid', horg', -⟩ := h.session r hr
  exact ⟨r', hr', hid'.trans hid, horg'.trans horg⟩

theorem Grows.whole (h : Grows s s') (hfinished : s.finished = true) {object : Bytes}
    (hwhole : Whole codec s object) : Whole codec s' object := by
  intro pieces hpieces
  rw [(h.finished hfinished).2]
  exact hwhole pieces hpieces

theorem Grows.knows (h : Grows s s') (hk : Knows times codec s k) : Knows times codec s' k := by
  cases k with
  | stat now => trivial
  | unlinkEmpty => trivial
  | lookup now mtime => exact ⟨Int.le_trans hk.1 h.now_le, h.createdAt ▸ hk.2⟩
  | opening row => exact h.owns hk
  | reading row d chunks => exact ⟨h.owns hk.1, hk.2.trans h.content⟩
  | uploading row object =>
    exact ⟨h.owns hk.1, (h.finished hk.2.1).1, h.whole hk.2.1 hk.2.2⟩
  | attaching row =>
    obtain ⟨hrow, object, hobject⟩ := hk
    exact ⟨h.owns hrow, h.bucket _ object hobject⟩
  | unlinkStored row =>
    obtain ⟨r, hr, hkey⟩ := hk
    obtain ⟨r', hr', -, -, hkey'⟩ := h.session r hr
    exact ⟨r', hr', hkey' hkey⟩
  | unlinkOrphan =>
    show s'.createdAt + times.orphanGraceMs ≤ s'.now
    rw [h.createdAt]
    exact Int.le_trans hk h.now_le

/-! ### What happens meanwhile -/

theorem env_grows {d : Change} (h : env times s d = some s') : Grows s s' := by
  cases d with
  | time now =>
    obtain ⟨⟨hle, -⟩, h⟩ := Option.ite_none_right_eq_some.mp h
    cases h
    exact { Grows.refl s with now_le := hle }
  | write bytes =>
    obtain ⟨hopen, h⟩ := Option.ite_none_left_eq_some.mp h
    cases h
    exact { Grows.refl s with
      content := List.prefix_append _ _
      finished := fun hfinished ↦ absurd hfinished hopen }
  | closeTunnel =>
    obtain ⟨-, h⟩ := Option.ite_none_right_eq_some.mp h
    cases h
    exact { Grows.refl s with }
  | finish =>
    obtain ⟨-, h⟩ := Option.ite_none_left_eq_some.mp h
    cases h
    exact { Grows.refl s with finished := fun _ ↦ ⟨rfl, rfl⟩ }
  | claim id orgId =>
    obtain ⟨hnone, h⟩ := Option.ite_none_right_eq_some.mp h
    cases h
    refine { Grows.refl s with session := fun row hrow ↦ ?_ }
    rw [hnone] at hrow
    cases hrow
  | ends cause =>
    obtain ⟨row, hrow, h⟩ := Option.bind_eq_some_iff.mp h
    obtain ⟨-, h⟩ := Option.ite_none_right_eq_some.mp h
    cases h
    refine { Grows.refl s with session := fun r hr ↦ ?_ }
    obtain rfl : row = r := Option.some.inj (hrow.symm.trans hr)
    exact ⟨_, rfl, rfl, rfl, id⟩

theorem Inv.of_grows (h : Inv times codec s) (hg : Grows s s') (hbucket : s'.bucket = s.bucket)
    (hremoved : s'.removed = s.removed) (hcreated : s'.createdAt ≤ s'.mtime)
    (hmtime : s'.mtime ≤ s'.now)
    (hsession : ∀ row' ∈ s'.session, ∀ key ∈ row'.recordingKey,
      ∃ row ∈ s.session, row.recordingKey = some key ∧ row.key = row'.key) :
    Inv times codec s' where
  created := hcreated
  mtime_le := hmtime
  bucket key object hobject := by
    rw [hbucket] at hobject
    obtain ⟨hfinished, hwhole⟩ := h.bucket key object hobject
    exact ⟨(hg.finished hfinished).1, hg.whole hfinished hwhole⟩
  attached row' hrow' key hkey := by
    obtain ⟨row, hrow, hrowKey, hsame⟩ := hsession row' hrow' key hkey
    rw [hbucket, ← hsame]
    exact h.attached row hrow key hrowKey
  removed r hr := by
    rw [hremoved] at hr
    obtain ⟨row, hrow, hkey⟩ | hrest := h.removed r hr
    · obtain ⟨row', hrow', -, -, hkey'⟩ := hg.session row hrow
      exact .inl ⟨row', hrow', hkey' hkey⟩
    · rw [hg.createdAt]
      exact .inr hrest

theorem env_inv {d : Change} (h : env times s d = some s') (hs : Inv times codec s) :
    Inv times codec s' := by
  have hg := env_grows h
  cases d with
  | time now =>
    obtain ⟨⟨hle, -⟩, h⟩ := Option.ite_none_right_eq_some.mp h
    cases h
    exact hs.of_grows hg rfl rfl hs.created (Int.le_trans hs.mtime_le hle)
      fun row hrow key hkey ↦ ⟨row, hrow, hkey, rfl⟩
  | write bytes =>
    obtain ⟨-, h⟩ := Option.ite_none_left_eq_some.mp h
    cases h
    exact hs.of_grows hg rfl rfl (Int.le_trans hs.created hs.mtime_le) (Int.le_refl _)
      fun row hrow key hkey ↦ ⟨row, hrow, hkey, rfl⟩
  | closeTunnel =>
    obtain ⟨-, h⟩ := Option.ite_none_right_eq_some.mp h
    cases h
    exact hs.of_grows hg rfl rfl hs.created hs.mtime_le
      fun row hrow key hkey ↦ ⟨row, hrow, hkey, rfl⟩
  | finish =>
    obtain ⟨-, h⟩ := Option.ite_none_left_eq_some.mp h
    cases h
    exact hs.of_grows hg rfl rfl hs.created hs.mtime_le
      fun row hrow key hkey ↦ ⟨row, hrow, hkey, rfl⟩
  | claim id orgId =>
    obtain ⟨-, h⟩ := Option.ite_none_right_eq_some.mp h
    cases h
    refine hs.of_grows hg rfl rfl hs.created hs.mtime_le fun row hrow key hkey ↦ ?_
    -- a session that has just been created points to nothing
    cases hrow
    cases hkey
  | ends cause =>
    obtain ⟨row, hrow, h⟩ := Option.bind_eq_some_iff.mp h
    obtain ⟨-, h⟩ := Option.ite_none_right_eq_some.mp h
    cases h
    refine hs.of_grows hg rfl rfl hs.created hs.mtime_le fun row' hrow' key hkey ↦ ?_
    cases hrow'
    exact ⟨row, hrow, hkey, rfl⟩

/-! ### What the sweeps do -/

theorem unlink_grows (s : Store) : Grows s (unlink s) := by
  unfold unlink
  cases s.removed with
  | some r => exact Grows.refl s
  | none => exact { Grows.refl s with }

theorem unlink_inv (hs : Inv times codec s)
    (hreason : s.removed = none → (∃ row ∈ s.session, row.recordingKey = some row.key) ∨
      (s.closedAt.isSome = true ∧ s.content.isEmpty = true) ∨
        (s.session.isSome = false ∧ s.createdAt + times.orphanGraceMs ≤ s.now)) :
    Inv times codec (unlink s) := by
  unfold unlink
  cases hr : s.removed with
  | some r => exact hs
  | none =>
    refine ⟨hs.created, hs.mtime_le, hs.bucket, hs.attached, fun r hmem ↦ ?_⟩
    cases hmem
    exact hreason hr

theorem upload_grows (s : Store) (key : String) (object : Bytes) : Grows s (upload s key object) := by
  refine { Grows.refl s with bucket := fun key' object' h ↦ ?_ }
  by_cases hkey : key' = key
  · subst hkey
    exact ⟨object, Function.update_self ..⟩
  · exact ⟨object', (Function.update_of_ne hkey _ _).trans h⟩

theorem upload_inv {key : String} {object : Bytes} (hs : Inv times codec s)
    (hfinished : s.finished = true) (hwhole : Whole codec s object) :
    Inv times codec (upload s key object) := by
  refine ⟨hs.created, hs.mtime_le, fun key' object' h ↦ ?_, fun row hrow key' hkey' ↦ ?_, hs.removed⟩
  · by_cases hkey : key' = key
    · subst hkey
      have hself : Function.update s.bucket key' (some object) key' = some object' := h
      rw [Function.update_self] at hself
      cases hself
      exact ⟨hfinished, hwhole⟩
    · exact hs.bucket key' object' ((Function.update_of_ne hkey _ _).symm.trans h)
  · obtain ⟨heq, object', hobject'⟩ := hs.attached row hrow key' hkey'
    exact ⟨heq, (upload_grows s key object).bucket _ _ hobject'⟩

theorem attach_session {r : Session} (hr : r ∈ s.session) (hrow : Owns s row) :
    (attach s row).session = some { r with recordingKey := some r.key } := by
  have hkey := hrow.key_eq hr
  obtain ⟨r', hr', hid, -⟩ := hrow
  obtain rfl : r' = r := Option.some.inj (hr'.symm.trans hr)
  show s.session.map _ = _
  rw [Option.mem_def.mp hr, Option.map_some, if_pos hid, hkey]

theorem attach_grows (hrow : Owns s row) : Grows s (attach s row) := by
  refine { Grows.refl s with session := fun r hr ↦ ?_ }
  exact ⟨_, attach_session hr hrow, rfl, rfl, fun _ ↦ rfl⟩

theorem attach_inv (hs : Inv times codec s) (hrow : Owns s row)
    (hobject : ∃ object, s.bucket row.key = some object) : Inv times codec (attach s row) := by
  obtain ⟨r, hr, hid, horg⟩ := id hrow
  have hsession := attach_session hr hrow
  refine ⟨hs.created, hs.mtime_le, hs.bucket, fun row' hrow' key hkey ↦ ?_, fun q hq ↦ ?_⟩
  · rw [hsession] at hrow'
    cases hrow'
    cases hkey
    refine ⟨rfl, ?_⟩
    show ∃ object, s.bucket r.key = some object
    rw [hrow.key_eq hr]
    exact hobject
  · obtain - | hrest := hs.removed q hq
    · exact .inl ⟨_, hsession, rfl⟩
    · exact .inr hrest

theorem read_prefix {chunks : List Bytes} {n : Nat} (h : chunks.flatten <+: s.content) :
    (chunks ++ [(rest s chunks).take n]).flatten <+: s.content := by
  obtain ⟨b, hb⟩ := h
  have hrest : rest s chunks = b := by rw [rest, ← hb, List.drop_left]
  rw [hrest, List.flatten_append, List.flatten_singleton, ← hb]
  exact (List.prefix_append_right_inj _).mpr (List.take_prefix _ _)

theorem flatten_eq_of_rest {chunks : List Bytes} (h : chunks.flatten <+: s.content)
    (hrest : rest s chunks = []) : chunks.flatten = s.content := by
  obtain ⟨b, hb⟩ := h
  rw [rest, ← hb, List.drop_left] at hrest
  rw [← hb, hrest, List.append_nil]

/-- The invariant is kept by a step, and the sweep knows what it should afterwards. -/
structure Fine (times : Times) (codec : Codec) (s s' : Store) (k' : Option (Call codec)) : Prop where
  inv : Inv times codec s'
  grows : Grows s s'
  knows : ∀ l ∈ k', Knows times codec s' l

theorem Inv.returns (hs : Inv times codec s) : Fine times codec s s none :=
  ⟨hs, Grows.refl s, fun _ hl ↦ by cases hl⟩

theorem Inv.goesOn (hs : Inv times codec s) (hk : Knows times codec s k) :
    Fine times codec s s (some k) :=
  ⟨hs, Grows.refl s, fun _ hl ↦ by cases hl; exact hk⟩

theorem stat_fine {now : Millis} {k' : Option (Call codec)}
    (h : act times codec s (.stat now) .next = some (s', k')) (hs : Inv times codec s) :
    Fine times codec s s' k' := by
  simp only [act] at h
  split_ifs at h with hfuture hremoved hyoung hempty
  · cases h
    exact hs.returns
  · cases h
    exact hs.returns
  · cases h
    exact hs.goesOn trivial
  · cases h
    exact hs.goesOn ⟨Int.not_lt.mp hfuture, hs.created⟩

theorem lookup_fine {now mtime : Millis} {k' : Option (Call codec)}
    (h : act times codec s (.lookup now mtime) .next = some (s', k')) (hs : Inv times codec s)
    (hk : Knows times codec s (.lookup now mtime)) : Fine times codec s s' k' := by
  simp only [act] at h
  cases hsession : s.session with
  | none =>
    simp only [hsession] at h
    split_ifs at h with hyoung
    · cases h
      exact hs.returns
    · cases h
      refine hs.goesOn ?_
      obtain ⟨hnow, hcreated⟩ := hk
      have hold : times.orphanGraceMs ≤ now - mtime := Int.not_lt.mp hyoung
      have hsum : s.createdAt + times.orphanGraceMs ≤ mtime + (now - mtime) :=
        Int.add_le_add hcreated hold
      rw [Int.add_comm mtime, Int.sub_add_cancel] at hsum
      exact Int.le_trans hsum hnow
  | some row =>
    simp only [hsession] at h
    split_ifs at h with hactive
    · cases h
      exact hs.returns
    · cases h
      exact hs.goesOn ⟨row, hsession, rfl, rfl⟩

theorem read_fine {row : Session} {d : codec.Drawn} {chunks : List Bytes} {e : Command codec}
    {k' : Option (Call codec)} (h : act times codec s (.reading row d chunks) e = some (s', k'))
    (hs : Inv times codec s) (hk : Knows times codec s (.reading row d chunks))
    (ht : e = .next → s.finished = true) : Fine times codec s s' k' := by
  obtain ⟨hrow, hread⟩ := hk
  cases e with
  | draw d => cases h
  | read n =>
    simp only [act] at h
    split_ifs at h with hrest
    cases h
    exact hs.goesOn ⟨hrow, read_prefix hread⟩
  | next =>
    simp only [act] at h
    split_ifs at h with hrest
    cases h
    refine hs.goesOn ⟨hrow, ht rfl, fun pieces hpieces ↦ ?_⟩
    rw [codec.decrypt_encrypt d chunks pieces hpieces, flatten_eq_of_rest hread hrest]

theorem act_fine {e : Command codec} {k' : Option (Call codec)}
    (h : act times codec s k e = some (s', k')) (hs : Inv times codec s)
    (hk : Knows times codec s k) (ht : e = .next → timelyCall codec s k = true) :
    Fine times codec s s' k' := by
  cases k with
  | stat now =>
    cases e with
    | next => exact stat_fine h hs
    | draw d => cases h
    | read n => cases h
  | lookup now mtime =>
    cases e with
    | next => exact lookup_fine h hs hk
    | draw d => cases h
    | read n => cases h
  | opening row =>
    cases e with
    | draw d =>
      simp only [act] at h
      split_ifs at h
      · cases h
        exact hs.returns
      · cases h
        exact hs.goesOn ⟨hk, List.nil_prefix⟩
    | next => cases h
    | read n => cases h
  | reading row d chunks => exact read_fine h hs hk ht
  | uploading row object =>
    cases e with
    | next =>
      obtain ⟨hrow, hfinished, hwhole⟩ := hk
      cases h
      refine ⟨upload_inv hs hfinished hwhole, upload_grows s _ _, fun l hl ↦ ?_⟩
      cases hl
      exact ⟨(upload_grows s _ _).owns hrow, object, Function.update_self ..⟩
    | draw d => cases h
    | read n => cases h
  | attaching row =>
    cases e with
    | next =>
      obtain ⟨hrow, hobject⟩ := hk
      cases h
      refine ⟨attach_inv hs hrow hobject, attach_grows hrow, fun l hl ↦ ?_⟩
      cases hl
      obtain ⟨r, hr, -, -⟩ := id hrow
      exact ⟨_, attach_session hr hrow, rfl⟩
    | draw d => cases h
    | read n => cases h
  | unlinkEmpty =>
    cases e with
    | next =>
      cases h
      refine ⟨unlink_inv hs fun hr ↦ ?_, unlink_grows s, fun _ hl ↦ by cases hl⟩
      have htimely := ht rfl
      rw [timelyCall, hr, Option.isSome_none, Bool.false_or, Bool.and_eq_true] at htimely
      exact .inr (.inl htimely)
    | draw d => cases h
    | read n => cases h
  | unlinkOrphan =>
    cases e with
    | next =>
      cases h
      refine ⟨unlink_inv hs fun hr ↦ ?_, unlink_grows s, fun _ hl ↦ by cases hl⟩
      have htimely := ht rfl
      rw [timelyCall, hr, Option.isSome_none, Bool.false_or, Option.isNone_iff_eq_none] at htimely
      exact .inr (.inr ⟨by rw [htimely]; rfl, hk⟩)
    | draw d => cases h
    | read n => cases h
  | unlinkStored row =>
    cases e with
    | next =>
      cases h
      exact ⟨unlink_inv hs fun _ ↦ .inl hk, unlink_grows s, fun _ hl ↦ by cases hl⟩
    | draw d => cases h
    | read n => cases h

theorem program_keeps : (program times codec).Keeps (fun p e _ ↦ timely codec p e = true)
    (Inv times codec) fun s _ k ↦ Knows times codec s k where
  spawn _ _ _ _ := trivial
  act p i k e s' k' hp hk hr hok := by
    have hfine := act_fine hr hp.1 (hp.2 i k hk) fun he ↦ by
      subst he
      have hall : (p.calls i).all (timelyCall codec p.store) = true := hok
      rwa [hk, Option.all_some] at hall
    exact ⟨hfine.inv, hfine.knows, fun j l _ hl ↦ hfine.grows.knows (hp.2 j l hl)⟩
  abort p _ _ hp _ := ⟨hp.1, fun j l _ hl ↦ hp.2 j l hl⟩
  env s d s' hs h := ⟨env_inv h hs, fun _ _ hl ↦ (env_grows h).knows hl⟩

/-- guacd has just created the file, and nothing else has happened. -/
def opened (now : Millis) : Store where
  now := now
  createdAt := now
  mtime := now

theorem inv_opened (now : Millis) : Inv times codec (opened now) where
  created := Int.le_refl _
  mtime_le := Int.le_refl _
  bucket := fun _ _ h ↦ by cases h
  attached := fun _ h ↦ by cases h
  removed := fun _ h ↦ by cases h

/-- **Recordings are kept whole**, if no sweep is too early. -/
theorem recordings_kept (times : Times) (codec : Codec) (now : Millis)
    (es : List (Event Millis (Command codec) Change)) (p : Pool Store (Call codec))
    (h : Run (program times codec).step (fun p e _ ↦ timely codec p e = true)
      (Program.idle _ (opened now)) es p) :
    Kept times codec p.store :=
  (program_keeps.run (Program.holds_idle (inv_opened now)) h).1.kept

/-! ## What is too early -/

theorem solo_stored (times : Times) (i : Nat) (row : Session) (d : codec.Drawn)
    {chunks : List Bytes} (hread : chunks.flatten = s.content) :
    (program times codec).Solo i s (.reading row d chunks) [.next, .next, .next, .next]
      (unlink (attach (upload s row.key (codec.encrypt d chunks)) row)) := by
  have hrest : rest s chunks = [] := by rw [rest, hread, List.drop_length]
  have hend : act times codec s (.reading row d chunks) .next =
      some (s, some (.uploading row (codec.encrypt d chunks))) := if_pos hrest
  exact .step hend (.step rfl (.step rfl (.ret rfl)))

theorem unlink_of_none (h : s.removed = none) : unlink s = { s with
    removed := some ⟨s.now, s.closedAt.isSome, s.content.isEmpty, s.session.isSome⟩ } := by
  rw [unlink, h]

/-- A sweep that reads to the end of the file before guacd has closed it may lose what follows. -/
theorem lost_of_early {p : Pool Store (Call codec)} {i : Nat} {row : Session} {d : codec.Drawn}
    {chunks : List Bytes} (hk : p.calls i = some (.reading row d chunks))
    (hread : chunks.flatten = p.store.content) (hne : p.store.content ≠ [])
    (hrow : Owns p.store row) (hthere : p.store.removed = none)
    (hearly : p.store.finished = false) :
    ∃ es q, Run (program times codec).step free p es q ∧ ¬ Kept times codec q.store := by
  have hsweep := (solo_stored times i row d hread).run rfl hk
  obtain ⟨r, hr, -, -⟩ := id hrow
  have hsession := attach_session (s := upload p.store row.key (codec.encrypt d chunks)) hr hrow
  set t := attach (upload p.store row.key (codec.encrypt d chunks)) row with ht
  have hkeptThere : t.removed = none := hthere
  rw [unlink_of_none hkeptThere] at hsweep
  -- guacd writes once more
  have hwrite : (program times codec).step ⟨{ t with
        removed := some ⟨t.now, t.closedAt.isSome, t.content.isEmpty, t.session.isSome⟩ },
        Function.update p.calls i none⟩ (.env (.write [0])) =
      some ⟨{ t with
        removed := some ⟨t.now, t.closedAt.isSome, t.content.isEmpty, t.session.isSome⟩
        content := t.content ++ [0]
        mtime := t.now }, Function.update p.calls i none⟩ := by
    have hopen : t.finished ≠ true := by
      rw [show t.finished = p.store.finished from rfl, hearly]
      exact Bool.false_ne_true
    simp only [Program.step, program, env, if_neg hopen, Option.map_some]
  refine ⟨_, _, hsweep.trans (.single hwrite trivial), fun hkept ↦ ?_⟩
  obtain ⟨row', hrow', object, -, hobject, hwhole⟩ | ⟨-, hempty⟩ | ⟨hunclaimed, -⟩ := hkept _ rfl
  · -- what is stored is what was there before
    have hkey : row'.key = row.key := by
      have hsame := hsession.symm.trans hrow'
      cases hsame
      exact (hrow.key_eq hr : r.key = row.key)
    have hput : Function.update p.store.bucket row.key (some (codec.encrypt d chunks)) row'.key =
        some object := hobject
    rw [hkey, Function.update_self] at hput
    cases hput
    have hold := codec.decrypt_encrypt d chunks [codec.encrypt d chunks] (by simp)
    have hnew := hwhole [codec.encrypt d chunks] (by simp)
    rw [hold, hread] at hnew
    have hlength := congrArg List.length (Prod.mk.inj hnew).1
    simp [t, attach, upload] at hlength
  · exact hne (List.isEmpty_iff.mp hempty)
  · have hclaimed : t.session.isSome = true := by
      rw [ht, hsession]
      rfl
    rw [show t.session.isSome = false from hunclaimed] at hclaimed
    cases hclaimed

end

/-! ## Two recordings -/

def plainly : Primitives where
  sha256 b := (b ++ List.replicate 32 0).take 32
  gcm := {
    keystream := fun _ _ _ ↦ 0
    tag := fun _ _ _ ↦ List.replicate 16 0
    accepts := fun _ _ _ t ↦ decide (t = List.replicate 16 0) }
  lossy _ := ""

theorem ideal_plainly : plainly.gcm.Ideal fun _ _ _ ↦ True where
  complete _ := by
    show decide (List.replicate 16 0 = List.replicate 16 (0 : UInt8)) = true
    exact decide_eq_true rfl
  genuine haccepts := ⟨trivial, (of_decide_eq_true haccepts) ▸ List.prefix_rfl⟩

def plainCodec : Codec :=
  recordingCrypto plainly { key := "a" } oldKey (fun _ _ _ ↦ List.length_replicate)
    (by decide +kernel) (by decide +kernel) (by decide +kernel) ideal_plainly

def idleDesktop : List (Event Millis (Command plainCodec) Change) :=
  [.env (.claim "session" "org"), .env (.write [1]), .env (.time (25 * 60 * 60 * 1000)),
    .env (.ends .stale), .spawn 0 (25 * 60 * 60 * 1000), .act 0 .next, .act 0 .next,
    .act 0 (.draw Recording.drawn), .act 0 (.read 0)]

def idlePool : Pool Store (Call plainCodec) :=
  (exec (program {} plainCodec).step (Program.idle _ (opened 0)) idleDesktop).getD
    (Program.idle _ (opened 0))

theorem idleDesktop_lost : ∃ es q,
    Run (program {} plainCodec).step free (Program.idle _ (opened 0)) (idleDesktop ++ es) q ∧
      ¬ Kept {} plainCodec q.store := by
  have hrun : Run (program {} plainCodec).step free (Program.idle _ (opened 0)) idleDesktop idlePool :=
    run_of_exec rfl
  have hread : idlePool.calls 0 = some (.reading _ Recording.drawn [[1]]) := rfl
  obtain ⟨es, q, hlost, hnot⟩ := lost_of_early hread rfl (by decide) ⟨_, rfl, rfl, rfl⟩ rfl rfl
  exact ⟨es, q, hrun.trans hlost, hnot⟩

def failedTunnel : List (Event Millis (Command plainCodec) Change) :=
  [.env .closeTunnel, .env .finish, .env (.time (60 * 1000)), .spawn 0 (60 * 1000), .act 0 .next,
    .act 0 .next]

def failedPool : Pool Store (Call plainCodec) :=
  (exec (program {} plainCodec).step (Program.idle _ (opened 0)) failedTunnel).getD
    (Program.idle _ (opened 0))

theorem failedTunnel_kept : failedPool.store.removed.isSome = true ∧
    Kept {} plainCodec failedPool.store := by
  refine ⟨rfl, recordings_kept {} plainCodec 0 failedTunnel failedPool ?_⟩
  exact run_of_execIf rfl

end Shellius.Rdp.Recordings
