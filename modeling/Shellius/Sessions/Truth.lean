import Shellius.Sessions.Listing

/-!
# When the list of live sessions is true

Rows are closed by whoever has evidence that their session is over, and nobody opens them again.
So a row that is active has a session that is live, or is being opened, or is on its way to be
closed, and a session that is live has a row that is active, or a connection that is about to be
closed.  Both are true as long as nobody takes the evidence for more than it is: as long as no
connection is closed while its row is being created, and no row is closed while its session is
being opened or is live.
-/

namespace Shellius.Sessions.Listing

open Lib Terminal

/-! ## What a call is about -/

def Call.opens : Call → Option Link
  | .sshCreate client _ | .sshCreated client _ | .sshShell client _ | .sshRecord client _ =>
    some (.ssh client)
  | .rdpCreate connectionId _ | .rdpCreated connectionId => some (.rdp connectionId)
  | _ => none

def Call.creates : Call → Bool
  | .sshCreate .. | .rdpCreate .. => true
  | _ => false

def Call.awaitsShell : Call → Bool
  | .sshShell .. => true
  | _ => false

section

variable (c : Columns) {toISOString : Millis → String} {q : Pool Process Call} {p p' : Process}
  {i j : Nat} {k k' : Call} {l : Link} {id : Id} {ok : Bool}

/-- A connection is being opened. -/
def Opening (q : Pool Process Call) (l : Link) : Prop := ∃ i k, q.calls i = some k ∧ k.opens = some l

def HasRow (s : Store) (id : Id) : Prop := ∃ row ∈ s.sessions, row.id = id

/-- A connection is up and being opened. -/
def Coming (q : Pool Process Call) (l : Link) : Prop := Opening q l ∧ q.store.links l = .up

/-- A session that can be live only as a tunnel that is open. -/
structure Past (q : Pool Process Call) (id : Id) : Prop where
  row : HasRow q.store.toStore id
  hub : q.store.hub id = none
  settled : ∀ l, c.key l = id → ¬ Coming q l

structure Over (q : Pool Process Call) (id : Id) : Prop extends Past c q id where
  dead : ∀ l, c.key l = id → ¬ Live c q.store l

def closes (p : Process) : Sessions.Call → Id → Prop
  | .readEnd sessionId _ _, id | .write sessionId _ _, id | .upload sessionId _ _ _, id
  | .saveKey sessionId _ _ _, id => sessionId = id
  | .take sessionId _ _, id => sessionId = id ∧ p.hub id ≠ none
  | .lookup connectionId, id => p.rdpSessionByConn connectionId = some id
  | _, _ => False

def Call.bound (p : Process) : Call → Id → Prop
  | .reconcileOrphanedSessions, id => ∃ client, c.key (.ssh client) = id
  | .sweep ids _, id => id ∈ ids
  | .closing k ids _, id => closes p k id ∨ id ∈ ids
  | _, _ => False

/-- What has to be true of the session that a call closes. -/
def Owes (q : Pool Process Call) : Sessions.Call → Prop
  | .readEnd id _ _ | .upload id _ _ _ | .saveKey id _ _ _ | .write id _ false => Over c q id
  | .write id _ true => Past c q id
  | .closeConn id => Past c q id ∧ ¬ q.store.IsActive id
  | .lookup connectionId => q.store.links (.rdp connectionId) = .down
  | .readTerminate _ _ _ close => close = true
  | _ => True

/-- What has to be true of the rows that a pass has still to look at. -/
def OwesPass (q : Pool Process Call) (ids : List Id) : Pass → Prop
  | .stale => ∀ id ∈ ids, Over c q id
  | .restart => ∀ id ∈ ids, HasRow q.store.toStore id ∧ ∃ client, c.key (.ssh client) = id

/-- What has to be true of a call that closes rows. -/
def Call.owes (q : Pool Process Call) : Call → Prop
  | .closing k ids pass => Owes c q k ∧ OwesPass c q ids pass
  | .sweep ids pass => OwesPass c q ids pass
  | _ => True

/-- A tunnel is about to be closed by whoever has terminated its session. -/
def Shutting (q : Pool Process Call) (id : Id) : Prop :=
  ∃ i ids pass, q.calls i = some (.closing (.closeConn id) ids pass)

/-- What is always true. -/
structure Inv (q : Pool Process Call) : Prop where
  rows : ∀ row ∈ q.store.sessions, ∃ l, c.key l = row.id ∧ q.store.links l ≠ .unused
  once : ∀ {i j k k' l}, q.calls i = some k → q.calls j = some k' → k.opens = some l →
    k'.opens = some l → i = j
  used : ∀ {i k l}, q.calls i = some k → k.opens = some l → q.store.links l ≠ .unused
  up : ∀ {i k l}, q.calls i = some k → k.opens = some l → k.awaitsShell = false →
    q.store.links l = .up
  fresh : ∀ {i k l}, q.calls i = some k → k.opens = some l → k.creates = true →
    ¬ HasRow q.store.toStore (c.key l)
  opened : ∀ {i k l}, q.calls i = some k → k.opens = some l → k.creates = false →
    HasRow q.store.toStore (c.key l) ∧ (q.store.links l = .up → q.store.IsActive (c.key l))
  hub : ∀ {id}, q.store.hub id ≠ none → q.store.IsActive id ∧
    ∃ client, c.key (.ssh client) = id ∧ ¬ Opening q (.ssh client)
  known : ∀ {n id}, q.store.rdpSessionByConn n = some id → c.key (.rdp n) = id ∧
    HasRow q.store.toStore id ∧ ¬ Opening q (.rdp n)
  connected : ∀ {n id}, q.store.rdpConnBySession id = some n → c.key (.rdp n) = id ∧
    HasRow q.store.toStore id ∧ ¬ Opening q (.rdp n)
  wired : ∀ {client}, q.store.hub (c.key (.ssh client)) ≠ none → q.store.links (.ssh client) = .up
  listening : ∀ {client}, q.store.listening client = true →
    HasRow q.store.toStore (c.key (.ssh client))
  owes : ∀ {i k}, q.calls i = some k → k.owes c q
  mapped : ∀ {n}, HasRow q.store.toStore (c.key (.rdp n)) → q.store.links (.rdp n) = .up →
    Opening q (.rdp n) ∨ q.store.rdpSessionByConn n = some (c.key (.rdp n)) ∧
      q.store.rdpConnBySession (c.key (.rdp n)) = some n
  tunnel : ∀ {n}, HasRow q.store.toStore (c.key (.rdp n)) → q.store.links (.rdp n) = .up →
    q.store.IsActive (c.key (.rdp n)) ∨ Shutting q (c.key (.rdp n))
  listed : ∀ {l}, q.store.IsActive (c.key l) → Live c q.store l ∨ Opening q l ∨
    ∃ i k, q.calls i = some k ∧ k.bound c q.store (c.key l)

variable {c}

theorem Inv.truthful (h : Inv c q) : Truthful c q := by
  intro hidle row hrow
  obtain ⟨l, hkey, -⟩ := h.rows row hrow
  have hnone : ∀ {i k}, q.calls i ≠ some k := by
    intro i k hk
    rw [hidle i] at hk
    cases hk
  constructor
  · intro hactive
    refine ⟨l, hkey, ?_⟩
    rcases h.listed (isActive_iff.mpr ⟨row, hrow, hkey.symm, hactive⟩) with
      hlive | ⟨i, k, hk, -⟩ | ⟨i, k, hk, -⟩
    · exact hlive
    · exact absurd hk hnone
    · exact absurd hk hnone
  · rintro ⟨m, hm, hup, hhub⟩
    have hactive : q.store.IsActive row.id := by
      rw [← hm]
      cases m with
      | ssh client =>
        have hsome := hhub client rfl
        exact (h.hub (Option.isSome_iff_ne_none.mp hsome)).1
      | rdp n =>
        rcases h.tunnel ⟨row, hrow, hm.symm⟩ hup with hactive | ⟨i, ids, pass, hk⟩
        · exact hactive
        · exact absurd hk hnone
    obtain ⟨row', hrow', hid, hstatus⟩ := isActive_iff.mp hactive
    rwa [Keyed.ext hrow hrow' hid.symm]

/-! ## What a step does -/

abbrev after (q : Pool Process Call) (i : Nat) (p' : Process) (k' : Option Call) :
    Pool Process Call := ⟨p', Function.update q.calls i k'⟩

/-- Something that is true of what a call goes on with. -/
def Next (k' : Option Call) (P : Call → Prop) : Prop := ∃ k, k' = some k ∧ P k

section

variable (c) (q : Pool Process Call) (k : Call) (p' : Process) (k' : Option Call)

/-- What a step does to the rows: they do not go away, and a row that is closed is that of a
session that is over, or of a tunnel that is closed next. -/
structure Rows : Prop where
  row : ∀ {id}, HasRow q.store.toStore id → HasRow p'.toStore id
  created : ∀ {id}, HasRow p'.toStore id → HasRow q.store.toStore id ∨
    (∃ l, c.key l = id ∧ k.opens = some l) ∧ p'.IsActive id
  revived : ∀ {id}, p'.IsActive id → q.store.IsActive id ∨ ¬ HasRow q.store.toStore id
  written : ∀ {id}, q.store.IsActive id → p'.IsActive id ∨ Over c q id ∨
    Past c q id ∧ Next k' fun k'' ↦ ∃ ids pass, k'' = .closing (.closeConn id) ids pass

/-- What a step does to the connections: they do not come back. -/
structure Links : Prop where
  used : ∀ {l}, q.store.links l ≠ .unused → p'.links l ≠ .unused
  down : ∀ {l}, q.store.links l = .down → p'.links l = .down
  shut : ∀ {l}, q.store.links l = .up → p'.links l = .up ∨ k.opens = some l ∨
    ∀ {j k''}, q.calls j = some k'' → k''.opens = some l → k''.awaitsShell = true
  hung : ∀ {client}, q.store.links (.ssh client) = .up → p'.links (.ssh client) ≠ .up →
    p'.hub (c.key (.ssh client)) = none

structure Hubs : Prop where
  hub : ∀ {id}, p'.hub id ≠ none → q.store.hub id ≠ none ∨ ∃ client, c.key (.ssh client) = id ∧
    k.opens = some (.ssh client) ∧ k.creates = false ∧ k.awaitsShell = false ∧ k' = none
  takes : ∀ {id}, q.store.hub id ≠ none → p'.hub id ≠ none ∨
    Next k' fun k'' ↦ k''.bound c p' id

/-- What a step does to the maps of the tunnels. -/
structure Maps : Prop where
  known : ∀ {n id}, p'.rdpSessionByConn n = some id → q.store.rdpSessionByConn n = some id ∨
    c.key (.rdp n) = id ∧ k.opens = some (.rdp n) ∧ k.creates = false ∧ k' = none
  connected : ∀ {n id}, p'.rdpConnBySession id = some n → q.store.rdpConnBySession id = some n ∨
    c.key (.rdp n) = id ∧ k.opens = some (.rdp n) ∧ k.creates = false ∧ k' = none
  keeps : ∀ {n}, p'.links (.rdp n) = .up →
    q.store.rdpSessionByConn n = some (c.key (.rdp n)) →
    q.store.rdpConnBySession (c.key (.rdp n)) = some n →
    p'.rdpSessionByConn n = some (c.key (.rdp n)) ∧
      p'.rdpConnBySession (c.key (.rdp n)) = some n
  looks : ∀ {n id}, q.store.rdpSessionByConn n = some id → p'.rdpSessionByConn n = some id ∨
    Next k' fun k'' ↦ k''.bound c p' id

/-- Nothing is opened by a step but what is new. -/
def Opens : Prop := ∀ {k'' l}, k' = some k'' → k''.opens = some l →
  k.opens = some l ∨ q.store.links l = .unused

/-- What a step does not do. -/
structure Frame : Prop extends Rows c q k p' k', Links c q k p', Hubs c q k p' k' where
  opens : Opens q k k'

end

variable {k' : Option Call}

theorem hasRow_congr {s s' : Store} (h : s'.sessions = s.sessions) : HasRow s' id ↔ HasRow s id := by
  unfold HasRow
  rw [h]

theorem isActive_congr {s s' : Store} (h : s'.sessions = s.sessions) :
    s'.IsActive id ↔ s.IsActive id := by
  unfold Store.IsActive
  rw [h]

theorem Rows.of_eq (h : p'.sessions = q.store.sessions) : Rows c q k p' k' where
  row := (hasRow_congr h).mpr
  created hrow := .inl ((hasRow_congr h).mp hrow)
  revived hactive := .inl ((isActive_congr h).mp hactive)
  written hactive := .inl ((isActive_congr h).mpr hactive)

theorem Links.of_eq (h : p'.links = q.store.links) : Links c q k p' where
  used hl := by rwa [h]
  down hl := by rwa [h]
  shut hl := .inl (by rwa [h])
  hung hup hup' := absurd (by rwa [h]) hup'

theorem Hubs.of_eq (h : p'.hub = q.store.hub) : Hubs c q k p' k' where
  hub hid := .inl (by rwa [h] at hid)
  takes hid := .inl (by rwa [h])

theorem Maps.of_eq (hsession : p'.rdpSessionByConn = q.store.rdpSessionByConn)
    (hconn : p'.rdpConnBySession = q.store.rdpConnBySession) : Maps c q k p' k' where
  known hid := .inl (by rwa [hsession] at hid)
  connected hid := .inl (by rwa [hconn] at hid)
  keeps _ hn hid := by
    rw [hsession, hconn]
    exact ⟨hn, hid⟩
  looks hid := .inl (by rwa [hsession])

theorem Columns.key_inj {l m : Link} (h : c.key l = c.key m) : l = m :=
  Option.some.inj ((c.link_eq_some.mpr h).symm.trans (c.link_eq_some.mpr rfl))

theorem Inv.used_of_row (h : Inv c q) (hrow : HasRow q.store.toStore (c.key l)) :
    q.store.links l ≠ .unused := by
  obtain ⟨row, hrow, hid⟩ := hrow
  obtain ⟨m, hm, hused⟩ := h.rows row hrow
  rwa [c.key_inj (hm.trans hid)] at hused

theorem hasRow_of_isActive (h : p.IsActive id) : HasRow p.toStore id := by
  obtain ⟨row, hrow, hid, -⟩ := isActive_iff.mp h
  exact ⟨row, hrow, hid⟩

theorem calls_after {k' : Option Call} {k'' : Call} (h : (after q i p' k').calls j = some k'') :
    j = i ∧ k' = some k'' ∨ j ≠ i ∧ q.calls j = some k'' := by
  by_cases hj : j = i
  · subst hj
    exact .inl ⟨rfl, (Function.update_self j k' q.calls).symm.trans h⟩
  · exact .inr ⟨hj, (Function.update_of_ne hj k' q.calls).symm.trans h⟩

theorem calls_of_ne {k' : Option Call} (hj : j ≠ i) : (after q i p' k').calls j = q.calls j :=
  Function.update_of_ne hj ..

theorem calls_self {k' : Option Call} : (after q i p' k').calls i = k' := Function.update_self ..

namespace Frame

theorem opening (hf : Frame c q k p' k') (hk : q.calls i = some k)
    (h : Opening (after q i p' k') l) : Opening q l ∨ q.store.links l = .unused := by
  obtain ⟨j, k'', hj, hl⟩ := h
  rcases calls_after hj with ⟨rfl, hk'⟩ | ⟨-, hj⟩
  · exact (hf.opens hk' hl).imp_left fun h ↦ ⟨j, k, hk, h⟩
  · exact .inl ⟨j, k'', hj, hl⟩

theorem up (hf : Frame c q k p' k') (h : p'.links l = .up) :
    q.store.links l = .up ∨ q.store.links l = .unused := by
  cases hl : q.store.links l with
  | unused => exact .inr rfl
  | up => exact .inl rfl
  | down => cases (hf.down hl).symm.trans h

theorem notOpening (hf : Frame c q k p' k') (h : Inv c q) (hk : q.calls i = some k)
    (hrow : HasRow q.store.toStore (c.key l)) (hl : ¬ Opening q l) :
    ¬ Opening (after q i p' k') l := by
  intro hopen
  rcases hf.opening hk hopen with hopen | hunused
  · exact hl hopen
  · exact h.used_of_row hrow hunused

theorem past (hf : Frame c q k p' k') (h : Inv c q) (hk : q.calls i = some k) (hpast : Past c q id) :
    Past c (after q i p' k') id := by
  refine ⟨hf.row hpast.row, ?_, fun l hl ↦ ?_⟩
  · by_contra hhub
    rcases hf.hub hhub with hhub | ⟨client, hkey, hopens, -, hshell, -⟩
    · exact hhub hpast.hub
    · exact hpast.settled _ hkey ⟨⟨i, k, hk, hopens⟩, h.up hk hopens hshell⟩
  · rintro ⟨hopen, hup⟩
    have hused := h.used_of_row (hl ▸ hpast.row)
    exact hpast.settled l hl
      ⟨(hf.opening hk hopen).resolve_right hused, (hf.up hup).resolve_right hused⟩

theorem keepsOver (hf : Frame c q k p' k') (h : Inv c q) (hk : q.calls i = some k) (hover : Over c q id) :
    Over c (after q i p' k') id := by
  refine ⟨hf.past h hk hover.toPast, fun l hl hlive ↦ hover.dead l hl ?_⟩
  refine ⟨(hf.up hlive.1).resolve_right (h.used_of_row (hl ▸ hover.row)), fun client hclient ↦ ?_⟩
  rcases hf.hub (Option.isSome_iff_ne_none.mp (hlive.2 client hclient)) with
    hhub | ⟨client', hkey, hopens, -, hshell, -⟩
  · exact Option.isSome_iff_ne_none.mpr hhub
  · exact absurd ⟨⟨i, k, hk, hopens⟩, h.up hk hopens hshell⟩ (hover.settled _ (hkey.trans hl))

theorem owesPass (hf : Frame c q k p' k') (h : Inv c q) (hk : q.calls i = some k) {ids : List Id}
    {pass : Pass} (howes : OwesPass c q ids pass) : OwesPass c (after q i p' k') ids pass := by
  cases pass with
  | stale => exact fun id hid ↦ hf.keepsOver h hk (howes id hid)
  | restart => exact fun id hid ↦ (howes id hid).imp_left hf.row

end Frame

variable (c) in
/-- What a step of a call does, as far as the list is concerned. -/
structure Progress (q : Pool Process Call) (i : Nat) (k : Call) (p' : Process) (k' : Option Call) :
    Prop extends Frame c q k p' k', Maps c q k p' k' where
  listening : ∀ {client}, p'.listening client = true → q.store.listening client = true ∨
    k.opens = some (.ssh client) ∧ k.creates = false
  ends : ∀ {l}, k.opens = some l → Next k' (·.opens = some l) ∨ ¬ HasRow p'.toStore (c.key l) ∨
    (∃ n, l = .rdp n ∧ p'.links l = .up ∧ p'.rdpSessionByConn n = some (c.key l) ∧
      p'.rdpConnBySession (c.key l) = some n) ∨
    ∃ client, l = .ssh client ∧ (Live c p' l ∨ Next k' fun k'' ↦ k''.bound c p' (c.key l))
  closed : ∀ {n ids pass}, k = .closing (.closeConn (c.key (.rdp n))) ids pass →
    p'.links (.rdp n) ≠ .up
  lost : ∀ {l}, Live c q.store l → p'.IsActive (c.key l) →
    Live c p' l ∨ Next k' fun k'' ↦ k''.bound c p' (c.key l)
  goes : ∀ {id}, k.bound c q.store id → p'.IsActive id →
    p'.hub id ≠ none ∨ Next k' fun k'' ↦ k''.bound c p' id
  next : ∀ {k''}, k' = some k'' → k''.owes c (after q i p' k') ∧
    ∀ {l}, k''.opens = some l → p'.links l ≠ .unused ∧
      (k''.awaitsShell = false → p'.links l = .up) ∧
      (k''.creates = true → ¬ HasRow p'.toStore (c.key l)) ∧
      (k''.creates = false → HasRow p'.toStore (c.key l) ∧
        (p'.links l = .up → p'.IsActive (c.key l)))

theorem Progress.owes (hs : Progress c q i k p' k') (h : Inv c q)
    (hk : q.calls i = some k) {m : Call} (hm : m.owes c q) : m.owes c (after q i p' k') := by
  have hf := hs.toFrame
  cases m with
  | closing s ids pass =>
    refine ⟨?_, hf.owesPass h hk hm.2⟩
    cases s with
    | readEnd | upload | saveKey => exact hf.keepsOver h hk hm.1
    | write id data close =>
      cases close with
      | false => exact hf.keepsOver h hk hm.1
      | true => exact hf.past h hk hm.1
    | closeConn id =>
      refine ⟨hf.past h hk hm.1.1, fun hactive ↦ ?_⟩
      rcases hs.revived hactive with hactive | hnone
      · exact hm.1.2 hactive
      · exact hnone hm.1.1.row
    | lookup n => exact hf.down hm.1
    | readTerminate => exact hm.1
    | ask | take => trivial
  | sweep ids pass => exact hf.owesPass h hk hm
  | _ => trivial

theorem Progress.bound (hs : Progress c q i k p' k') {m : Call}
    (hm : m.bound c q.store id) :
    m.bound c p' id ∨ Next k' fun k'' ↦ k''.bound c p' id := by
  cases m with
  | closing s ids pass =>
    rcases hm with hm | hm
    · cases s with
      | readEnd | upload | saveKey | write => exact .inl (.inl hm)
      | take sessionId reason extra =>
        obtain ⟨rfl, hhub⟩ := hm
        exact (hs.takes hhub).imp_left fun hhub ↦ .inl ⟨rfl, hhub⟩
      | lookup n => exact (hs.looks hm).imp_left .inl
      | readTerminate | closeConn | ask => cases hm
    · exact .inl (.inr hm)
  | sweep ids pass => exact .inl hm
  | reconcileOrphanedSessions => exact .inl hm
  | _ => cases hm

theorem Progress.inv (hs : Progress c q i k p' k') (h : Inv c q)
    (hk : q.calls i = some k) : Inv c (after q i p' k') := by
  have hf := hs.toFrame
  -- a row that was active and is not closed by this step is active
  have hactive : ∀ {id}, q.store.IsActive id → ¬ Past c q id → p'.IsActive id := by
    intro id hid hpast
    rcases hs.written hid with hid | hover | ⟨hid, -⟩
    · exact hid
    · exact absurd hover.toPast hpast
    · exact absurd hid hpast
  -- what is opened by the call itself is opened by no other
  have halone : ∀ {l}, k.opens = some l → k' = none → ¬ Opening (after q i p' k') l := by
    rintro l hl rfl ⟨j, k'', hj, hl'⟩
    rcases calls_after hj with ⟨-, hj⟩ | ⟨hne, hj⟩
    · cases hj
    · exact hne (h.once hj hk hl' hl)
  have hopening : ∀ {l}, Opening q l → k.opens ≠ some l → Opening (after q i p' k') l := by
    rintro l ⟨j, k'', hj, hl⟩ hne
    have hji : j ≠ i := by
      rintro rfl
      obtain rfl := Option.some.inj (hk.symm.trans hj)
      exact hne hl
    exact ⟨j, k'', (calls_of_ne hji).trans hj, hl⟩
  have hnext : ∀ {P : Call → Prop}, Next k' P → ∃ j k'', (after q i p' k').calls j = some k'' ∧
      P k'' := by
    rintro P ⟨k'', rfl, hP⟩
    exact ⟨i, k'', calls_self, hP⟩
  -- what ends an opening
  have hends : ∀ {l}, k.opens = some l → p'.IsActive (c.key l) → Opening (after q i p' k') l ∨
      Live c p' l ∨ ∃ j m, (after q i p' k').calls j = some m ∧ m.bound c p' (c.key l) := by
    intro l hl hrow
    rcases hs.ends hl with hopens | hnone | ⟨n, rfl, hup, -⟩ | ⟨client, rfl, hlive | hbound⟩
    · exact .inl (hnext hopens)
    · exact absurd (hasRow_of_isActive hrow) hnone
    · exact .inr (.inl ⟨hup, fun client hclient ↦ by cases hclient⟩)
    · exact .inr (.inl hlive)
    · exact .inr (.inr (hnext hbound))
  have hhub : ∀ {id}, p'.hub id ≠ none → p'.IsActive id ∧
      ∃ client, c.key (.ssh client) = id ∧ ¬ Opening (after q i p' k') (.ssh client) := by
    intro id hid
    rcases hf.hub hid with hid | ⟨client, rfl, hopens, hcreates, hshell, hnone⟩
    · obtain ⟨hrow, client, rfl, hclient⟩ := h.hub hid
      exact ⟨hactive hrow fun hpast ↦ hid hpast.hub, client, rfl,
        hf.notOpening h hk (hasRow_of_isActive hrow) hclient⟩
    · have hup := h.up hk hopens hshell
      have hrow := (h.opened hk hopens hcreates).2 hup
      exact ⟨hactive hrow fun hpast ↦ hpast.settled _ rfl ⟨⟨i, k, hk, hopens⟩, hup⟩, client, rfl,
        halone hopens hnone⟩
  have hwired : ∀ {client}, p'.hub (c.key (.ssh client)) ≠ none →
      p'.links (.ssh client) = .up := by
    intro client hid
    by_contra hup
    refine hid (hs.hung ?_ hup)
    rcases hf.hub hid with hold | ⟨client', hkey, hopens, -, hshell, -⟩
    · exact h.wired hold
    · obtain rfl := Link.ssh.inj (c.key_inj hkey)
      exact h.up hk hopens hshell
  refine ⟨?_, ?_, ?_, ?_, ?_, ?_, hhub, ?_, ?_, hwired, ?_, ?_, ?_, ?_, ?_⟩
  · -- rows
    intro row hrow
    rcases hs.created ⟨row, hrow, rfl⟩ with ⟨old, hold, hid⟩ | ⟨⟨l, hl, hopens⟩, -⟩
    · obtain ⟨l, hl, hused⟩ := h.rows old hold
      exact ⟨l, hl.trans hid, hf.used hused⟩
    · exact ⟨l, hl, hf.used (h.used hk hopens)⟩
  · -- once
    intro j j' m m' l hj hj' hl hl'
    rcases calls_after hj with ⟨rfl, hm⟩ | ⟨hne, hold⟩
    · rcases calls_after hj' with ⟨rfl, -⟩ | ⟨hne', hold'⟩
      · rfl
      · rcases hf.opens hm hl with hopens | hunused
        · exact absurd (h.once hold' hk hl' hopens) hne'
        · exact absurd hunused (h.used hold' hl')
    · rcases calls_after hj' with ⟨rfl, hm'⟩ | ⟨-, hold'⟩
      · rcases hf.opens hm' hl' with hopens | hunused
        · exact absurd (h.once hold hk hl hopens) hne
        · exact absurd hunused (h.used hold hl)
      · exact h.once hold hold' hl hl'
  · -- used
    intro j m l hj hl
    rcases calls_after hj with ⟨rfl, hm⟩ | ⟨-, hj⟩
    · exact ((hs.next hm).2 hl).1
    · exact hf.used (h.used hj hl)
  · -- up
    intro j m l hj hl hshell
    rcases calls_after hj with ⟨rfl, hm⟩ | ⟨hne, hj⟩
    · exact ((hs.next hm).2 hl).2.1 hshell
    · rcases hs.shut (h.up hj hl hshell) with hup | hopens | hall
      · exact hup
      · exact absurd (h.once hj hk hl hopens) hne
      · rw [hall hj hl] at hshell
        cases hshell
  · -- fresh
    intro j m l hj hl hcreates
    rcases calls_after hj with ⟨rfl, hm⟩ | ⟨hne, hj⟩
    · exact ((hs.next hm).2 hl).2.2.1 hcreates
    · intro hrow
      rcases hs.created hrow with hrow | ⟨⟨l', hl', hopens⟩, -⟩
      · exact h.fresh hj hl hcreates hrow
      · obtain rfl := c.key_inj hl'
        exact hne (h.once hj hk hl hopens)
  · -- opened
    intro j m l hj hl hcreates
    rcases calls_after hj with ⟨rfl, hm⟩ | ⟨-, hj⟩
    · exact ((hs.next hm).2 hl).2.2.2 hcreates
    · obtain ⟨hrow, hup⟩ := h.opened hj hl hcreates
      refine ⟨hf.row hrow, fun hup' ↦ ?_⟩
      have hup₀ := (hf.up hup').resolve_right (h.used hj hl)
      exact hactive (hup hup₀) fun hpast ↦ hpast.settled l rfl ⟨⟨j, m, hj, hl⟩, hup₀⟩
  · -- known
    intro n id hid
    rcases hs.known hid with hid | ⟨rfl, hopens, hcreates, hnone⟩
    · obtain ⟨rfl, hrow, hn⟩ := h.known hid
      exact ⟨rfl, hf.row hrow, hf.notOpening h hk hrow hn⟩
    · exact ⟨rfl, hf.row (h.opened hk hopens hcreates).1, halone hopens hnone⟩
  · -- connected
    intro n id hid
    rcases hs.connected hid with hid | ⟨rfl, hopens, hcreates, hnone⟩
    · obtain ⟨rfl, hrow, hn⟩ := h.connected hid
      exact ⟨rfl, hf.row hrow, hf.notOpening h hk hrow hn⟩
    · exact ⟨rfl, hf.row (h.opened hk hopens hcreates).1, halone hopens hnone⟩
  · -- listening
    intro client hclient
    rcases hs.listening hclient with hclient | ⟨hopens, hcreates⟩
    · exact hf.row (h.listening hclient)
    · exact hf.row (h.opened hk hopens hcreates).1
  · -- owes
    intro j m hj
    rcases calls_after hj with ⟨rfl, hm⟩ | ⟨-, hold⟩
    · exact (hs.next hm).1
    · exact hs.owes h hk (h.owes hold)
  · -- mapped
    intro n hrow hup
    have hopens : k.opens = some (.rdp n) → Opening (after q i p' k') (.rdp n) ∨
        p'.rdpSessionByConn n = some (c.key (.rdp n)) ∧
          p'.rdpConnBySession (c.key (.rdp n)) = some n := by
      intro hl
      rcases hs.ends hl with hopens | hnone | ⟨n', hn', -, hmaps⟩ | ⟨client, hclient, -⟩
      · exact .inl (hnext hopens)
      · exact absurd hrow hnone
      · obtain rfl := Link.rdp.inj hn'
        exact .inr hmaps
      · cases hclient
    rcases hs.created hrow with hold | ⟨⟨l, hl, hopens'⟩, -⟩
    · have hup₀ := (hf.up hup).resolve_right (h.used_of_row hold)
      rcases h.mapped hold hup₀ with hopen | ⟨hconn, hsession⟩
      · by_cases hl : k.opens = some (.rdp n)
        · exact hopens hl
        · exact .inl (hopening hopen hl)
      · exact .inr (hs.keeps hup hconn hsession)
    · obtain rfl := c.key_inj hl
      exact hopens hopens'
  · -- tunnel
    intro n hrow hup
    rcases hs.created hrow with hold | ⟨-, hrow'⟩
    · have hup₀ := (hf.up hup).resolve_right (h.used_of_row hold)
      rcases h.tunnel hold hup₀ with hrow' | ⟨j, ids, pass, hj⟩
      · rcases hs.written hrow' with hrow' | hover | ⟨-, hclosing⟩
        · exact .inl hrow'
        · exact absurd ⟨hup₀, fun client hclient ↦ by cases hclient⟩ (hover.dead _ rfl)
        · obtain ⟨j, m, hm, ids, pass, rfl⟩ := hnext hclosing
          exact .inr ⟨j, ids, pass, hm⟩
      · by_cases hji : j = i
        · subst hji
          exact absurd hup (hs.closed (Option.some.inj (hk.symm.trans hj)))
        · exact .inr ⟨j, ids, pass, (calls_of_ne hji).trans hj⟩
    · exact .inl hrow'
  · -- listed
    intro l hrow
    rcases hs.revived hrow with hold | hnone
    · rcases h.listed hold with hlive | hopen | ⟨j, m, hj, hbound⟩
      · rcases hs.lost hlive hrow with hlive | hbound
        · exact .inl hlive
        · exact .inr (.inr (hnext hbound))
      · by_cases hl : k.opens = some l
        · rcases hends hl hrow with hopen | hlive | hbound
          · exact .inr (.inl hopen)
          · exact .inl hlive
          · exact .inr (.inr hbound)
        · exact .inr (.inl (hopening hopen hl))
      · by_cases hji : j = i
        · subst hji
          obtain rfl := Option.some.inj (hk.symm.trans hj)
          rcases hs.goes hbound hrow with hid | hbound
          · -- the pass leaves the session to the hub
            obtain ⟨-, client, hkey, -⟩ := hhub hid
            obtain rfl := c.key_inj hkey
            exact .inl ⟨hwired hid, fun client' hclient ↦ Option.isSome_iff_ne_none.mpr hid⟩
          · exact .inr (.inr (hnext hbound))
        · rcases hs.bound hbound with hbound | hbound
          · exact .inr (.inr ⟨j, m, (calls_of_ne hji).trans hj, hbound⟩)
          · exact .inr (.inr (hnext hbound))
    · rcases hs.created (hasRow_of_isActive hrow) with hold | ⟨⟨l', hl', hopens⟩, -⟩
      · exact absurd hold hnone
      · obtain rfl := c.key_inj hl'
        rcases hends hopens hrow with hopen | hlive | hbound
        · exact .inr (.inl hopen)
        · exact .inl hlive
        · exact .inr (.inr hbound)

end

end Shellius.Sessions.Listing
