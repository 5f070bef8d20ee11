import Shellius.Sessions.Truth

/-!
# Opening a connection

The steps of the calls that open a connection: each brings the connection a little further, until
its session is live, or there is none.
-/

namespace Shellius.Sessions.Listing

open Lib Terminal

section

variable {c : Columns} {toISOString : Millis → String} {q : Pool Process Call} {p p' : Process}
  {i j : Nat} {k : Call} {k' : Option Call} {l : Link} {id : Id} {ok : Bool}

/-! ## The steps that open nothing -/

theorem live_congr (hlinks : p'.links = p.links) (hhub : p'.hub = p.hub) :
    Live c p' l ↔ Live c p l := by
  unfold Live
  rw [hlinks, hhub]

theorem opens_of_none (hnext : ∀ {k''}, k' = some k'' → k''.opens = none) : Opens q k k' := by
  intro k'' l hk' hl
  rw [hnext hk'] at hl
  cases hl

theorem opens_some {k'' : Call} (h : k''.opens = none) : Opens q k (some k'') := by
  refine opens_of_none fun hk' ↦ ?_
  rw [← Option.some.inj hk', h]

theorem Progress.of_live (hopens : k.opens = none) (hrows : Rows c q k p' k')
    (hmaps : Maps c q k p' k') (hlinks : p'.links = q.store.links) (hhub : p'.hub = q.store.hub)
    (hlistening : p'.listening = q.store.listening)
    (hnext : ∀ {k''}, k' = some k'' → k''.opens = none ∧
      (Frame c q k p' k' → k''.owes c (after q i p' k')))
    (hclosed : ∀ {n ids pass}, k = .closing (.closeConn (c.key (.rdp n))) ids pass →
      p'.links (.rdp n) ≠ .up)
    (hgoes : ∀ {id}, k.bound c q.store id → p'.IsActive id →
      p'.hub id ≠ none ∨ Next k' fun k'' ↦ k''.bound c p' id) : Progress c q i k p' k' := by
  have hf : Frame c q k p' k' :=
    ⟨hrows, .of_eq hlinks, .of_eq hhub, opens_of_none fun hk' ↦ (hnext hk').1⟩
  refine ⟨hf, hmaps, fun hclient ↦ .inl (by rwa [hlistening] at hclient), fun hl ↦ ?_, hclosed,
    fun hlive _ ↦ .inl ((live_congr hlinks hhub).mpr hlive), hgoes, fun hk' ↦
      ⟨(hnext hk').2 hf, fun hl ↦ ?_⟩⟩
  · rw [hopens] at hl
    cases hl
  · rw [(hnext hk').1] at hl
    cases hl

theorem Progress.quiet (hopens : k.opens = none)
    (hnext : ∀ {k''}, k' = some k'' → k''.opens = none ∧
      (Frame c q k q.store k' → k''.owes c (after q i q.store k')))
    (hclosed : ∀ {n ids pass}, k = .closing (.closeConn (c.key (.rdp n))) ids pass →
      q.store.links (.rdp n) ≠ .up)
    (hgoes : ∀ {id}, k.bound c q.store id → q.store.IsActive id →
      q.store.hub id ≠ none ∨ Next k' fun k'' ↦ k''.bound c q.store id) :
    Progress c q i k q.store k' :=
  .of_live hopens (.of_eq rfl) (.of_eq rfl rfl) rfl rfl rfl hnext hclosed hgoes

theorem resume_eq_some {ids : List Id} {pass : Pass} {k'' : Call} :
    resume ids pass = some k'' ↔ ids ≠ [] ∧ k'' = .sweep ids pass := by
  unfold resume
  split
  · rename_i h
    simp [h]
  · rename_i h
    simp [h, eq_comm]

theorem next_resume {ids : List Id} {pass : Pass} (hid : id ∈ ids) :
    Next (resume ids pass) fun k'' ↦ k''.bound c p' id :=
  ⟨_, resume_eq_some.mpr ⟨List.ne_nil_of_mem hid, rfl⟩, hid⟩

theorem Progress.returns (hopens : k.opens = none)
    (hclosed : ∀ {n ids pass}, k = .closing (.closeConn (c.key (.rdp n))) ids pass →
      q.store.links (.rdp n) ≠ .up)
    (hbound : ∀ {id}, ¬ k.bound c q.store id) : Progress c q i k q.store none :=
  .quiet hopens (fun hk' ↦ by cases hk') hclosed fun hid ↦ absurd hid hbound

/-! ## The steps that open a connection -/

@[simp] theorem setLink_self {state : LinkState} : (p.setLink l state).links l = state :=
  Function.update_self ..

theorem setLink_of_ne {m : Link} {state : LinkState} (h : m ≠ l) :
    (p.setLink l state).links m = p.links m := Function.update_of_ne h ..

theorem listen_of_ne {client client' : Nat} {listens : Bool} (h : client' ≠ client) :
    (p.listen client listens).listening client' = p.listening client' := Function.update_of_ne h ..

theorem Links.opened (hl : q.store.links l = .unused) : Links c q k (q.store.setLink l .up) := by
  have hsame : ∀ {m}, q.store.links m ≠ .unused →
      (q.store.setLink l .up).links m = q.store.links m := by
    intro m hm
    refine setLink_of_ne ?_
    rintro rfl
    exact hm hl
  have hup : ∀ {m}, q.store.links m = .up → (q.store.setLink l .up).links m = .up := by
    intro m hm
    rw [hsame (by rw [hm]; decide), hm]
  refine ⟨fun hm ↦ ?_, fun hm ↦ ?_, fun hm ↦ .inl (hup hm), fun hm hm' ↦ absurd (hup hm) hm'⟩
  · rwa [hsame hm]
  · rw [hsame (by rw [hm]; decide), hm]

theorem Links.closed (hlinks : p'.links = (q.store.setLink l .down).links)
    (hopening : k.opens = some l ∨
      ∀ {j k''}, q.calls j = some k'' → k''.opens = some l → k''.awaitsShell = true)
    (hhub : l.isSsh = true → p'.hub (c.key l) = none) (hl : q.store.links l ≠ .unused) :
    Links c q k p' := by
  have hself : p'.links l = .down := by rw [hlinks, setLink_self]
  have hsame : ∀ {m}, m ≠ l → p'.links m = q.store.links m := by
    intro m hm
    rw [hlinks, setLink_of_ne hm]
  refine ⟨fun {m} hm ↦ ?_, fun {m} hm ↦ ?_, fun {m} hm ↦ ?_, fun {client} hm hm' ↦ ?_⟩
  · by_cases hml : m = l
    · rw [hml, hself]
      decide
    · rwa [hsame hml]
  · by_cases hml : m = l
    · rw [hml, hself]
    · rwa [hsame hml]
  · by_cases hml : m = l
    · subst hml
      exact .inr hopening
    · exact .inl ((hsame hml).trans hm)
  · by_cases hml : Link.ssh client = l
    · subst hml
      exact hhub rfl
    · exact absurd ((hsame hml).trans hm) hm'

theorem Progress.opened (h : Inv c q) (hopens : k.opens = none) (hl : q.store.links l = .unused)
    (hclosing : ∀ s ids pass, k ≠ .closing s ids pass) (hbound : ∀ {id}, ¬ k.bound c q.store id)
    (hnext : ∀ {k''}, k' = some k'' → k''.opens = some l ∧ k''.creates = true ∧
      k''.owes c (after q i (q.store.setLink l .up) k')) :
    Progress c q i k (q.store.setLink l .up) k' := by
  have hnone : ¬ HasRow q.store.toStore (c.key l) := fun hrow ↦ h.used_of_row hrow hl
  have hf : Frame c q k (q.store.setLink l .up) k' := by
    refine ⟨.of_eq rfl, .opened hl, .of_eq rfl, fun hk' hl' ↦ .inr ?_⟩
    obtain rfl := Option.some.inj ((hnext hk').1.symm.trans hl')
    exact hl
  refine ⟨hf, .of_eq rfl rfl, .inl, fun hl' ↦ ?_, fun hk ↦ absurd hk (hclosing _ _ _),
    fun {m} hlive _ ↦ .inl ?_, fun hid ↦ absurd hid hbound, fun hk' ↦ ⟨(hnext hk').2.2, ?_⟩⟩
  · rw [hopens] at hl'
    cases hl'
  · refine ⟨?_, hlive.2⟩
    rw [setLink_of_ne, hlive.1]
    rintro rfl
    cases hlive.1.symm.trans hl
  · intro m hm
    obtain rfl := Option.some.inj ((hnext hk').1.symm.trans hm)
    rw [setLink_self]
    refine ⟨by decide, fun _ ↦ rfl, fun _ ↦ hnone, fun hcreates ↦ ?_⟩
    rw [(hnext hk').2.1] at hcreates
    cases hcreates

theorem ne_closing_of_opens (h : k.opens = some l) {s : Sessions.Call} {ids : List Id}
    {pass : Pass} : k ≠ .closing s ids pass := by
  rintro rfl
  cases h

theorem not_bound_of_opens (h : k.opens = some l) : ¬ k.bound c p id := by
  intro hbound
  cases k with
  | reconcileOrphanedSessions | sweep | closing => cases h
  | _ => cases hbound

theorem create_eq_some {start : Start} : p.create id start = some p' ↔
    ∃ hfree, p' = { p with
      sessions := p.sessions.insert { id, orgId := start.orgId, startedAt := p.now } hfree } := by
  rw [Process.create, Option.map_eq_some_iff]
  constructor
  · rintro ⟨sessions, hsessions, rfl⟩
    obtain ⟨hfree, rfl⟩ := Keyed.insert?_eq_some.mp hsessions
    exact ⟨hfree, rfl⟩
  · rintro ⟨hfree, rfl⟩
    exact ⟨_, Keyed.insert?_eq_some.mpr ⟨hfree, rfl⟩, rfl⟩

theorem isActive_create {start : Start} (hp : p.create id start = some p') :
    ¬ HasRow p.toStore id ∧ (∀ {id'}, HasRow p'.toStore id' ↔ HasRow p.toStore id' ∨ id' = id) ∧
      ∀ {id'}, p'.IsActive id' ↔ p.IsActive id' ∨ id' = id := by
  obtain ⟨hfree, rfl⟩ := create_eq_some.mp hp
  refine ⟨fun ⟨row, hrow, hid⟩ ↦ hfree row hrow hid, ⟨?_, ?_⟩, ⟨?_, ?_⟩⟩
  · rintro ⟨row, hrow, rfl⟩
    rcases (Keyed.mem_insert hfree).mp hrow with hrow | rfl
    · exact .inl ⟨row, hrow, rfl⟩
    · exact .inr rfl
  · rintro (⟨row, hrow, rfl⟩ | rfl)
    · exact ⟨row, (Keyed.mem_insert hfree).mpr (.inl hrow), rfl⟩
    · exact ⟨_, (Keyed.mem_insert hfree).mpr (.inr rfl), rfl⟩
  · intro hactive
    obtain ⟨row, hrow, rfl, hstatus⟩ := isActive_iff.mp hactive
    rcases (Keyed.mem_insert hfree).mp hrow with hrow | rfl
    · exact .inl (isActive_iff.mpr ⟨row, hrow, rfl, hstatus⟩)
    · exact .inr rfl
  · rintro (hactive | rfl)
    · obtain ⟨row, hrow, hid, hstatus⟩ := isActive_iff.mp hactive
      exact isActive_iff.mpr ⟨row, (Keyed.mem_insert hfree).mpr (.inl hrow), hid, hstatus⟩
    · exact isActive_iff.mpr ⟨_, (Keyed.mem_insert hfree).mpr (.inr rfl), rfl, rfl⟩

theorem Progress.creates {start : Start} {k'' : Call} (h : Inv c q) (hk : q.calls i = some k)
    (hopens : k.opens = some l) (hcreates : k.creates = true)
    (hp : q.store.create (c.key l) start = some p') (hopens' : k''.opens = some l)
    (hcreates' : k''.creates = false) (howes : k''.owes c (after q i p' (some k''))) :
    Progress c q i k p' (some k'') := by
  obtain ⟨hnone, hrow, hactive⟩ := isActive_create hp
  have hsame : p'.links = q.store.links ∧ p'.hub = q.store.hub ∧
      p'.rdpSessionByConn = q.store.rdpSessionByConn ∧
      p'.rdpConnBySession = q.store.rdpConnBySession ∧ p'.listening = q.store.listening := by
    obtain ⟨hfree, rfl⟩ := create_eq_some.mp hp
    exact ⟨rfl, rfl, rfl, rfl, rfl⟩
  obtain ⟨hlinks, hhub, hsession, hconn, hlistening⟩ := hsame
  have hrows : Rows c q k p' (some k'') := by
    refine ⟨fun hid ↦ hrow.mpr (.inl hid), fun hid ↦ ?_, fun hid ↦ ?_,
      fun hid ↦ .inl (hactive.mpr (.inl hid))⟩
    · rcases hrow.mp hid with hid | rfl
      · exact .inl hid
      · exact .inr ⟨⟨l, rfl, hopens⟩, hactive.mpr (.inr rfl)⟩
    · rcases hactive.mp hid with hid | rfl
      · exact .inl hid
      · exact .inr hnone
  have hf : Frame c q k p' (some k'') := by
    refine ⟨hrows, .of_eq hlinks, .of_eq hhub, fun hk' hl' ↦ .inl ?_⟩
    obtain rfl := Option.some.inj hk'
    rw [hopens, ← hopens', hl']
  refine ⟨hf, .of_eq hsession hconn, fun hclient ↦ .inl (by rwa [hlistening] at hclient),
    fun hl ↦ .inl ⟨k'', rfl, ?_⟩, fun hk ↦ absurd hk (ne_closing_of_opens hopens),
    fun hlive _ ↦ .inl ((live_congr hlinks hhub).mpr hlive),
    fun hid ↦ absurd hid (not_bound_of_opens hopens), ?_⟩
  · exact hopens'.trans (hopens.symm.trans hl)
  · intro m hm
    obtain rfl := Option.some.inj hm
    refine ⟨howes, fun {m'} hm' ↦ ?_⟩
    obtain rfl := Option.some.inj (hopens'.symm.trans hm')
    rw [hlinks]
    refine ⟨h.used hk hopens, fun _ ↦ h.up hk hopens ?_, fun htrue ↦ ?_, fun _ ↦
      ⟨hrow.mpr (.inr rfl), fun _ ↦ hactive.mpr (.inr rfl)⟩⟩
    · cases k with
      | sshShell => cases hcreates
      | _ => rfl
    · rw [hcreates'] at htrue
      cases htrue

theorem Progress.fails (h : Inv c q) (hk : q.calls i = some k) (hopens : k.opens = some l)
    (hcreates : k.creates = true)
    (hp : p' = q.store ∨ p' = q.store.setLink l .down) : Progress c q i k p' none := by
  have hnone : ¬ HasRow q.store.toStore (c.key l) := h.fresh hk hopens hcreates
  have hhub : q.store.hub (c.key l) = none := by
    by_contra hhub
    exact hnone (hasRow_of_isActive (h.hub hhub).1)
  have hlinks : Links c q k p' := by
    rcases hp with rfl | rfl
    · exact .of_eq rfl
    · exact .closed rfl (.inl hopens) (fun _ ↦ hhub) (h.used hk hopens)
  have hsame : p'.toStore = q.store.toStore ∧ p'.listening = q.store.listening := by
    rcases hp with rfl | rfl
    · exact ⟨rfl, rfl⟩
    · exact ⟨rfl, rfl⟩
  obtain ⟨hstore, hlistening⟩ := hsame
  have hf : Frame c q k p' none :=
    ⟨.of_eq (by rw [hstore]), hlinks, .of_eq (by rw [hstore]), fun hk' ↦ by cases hk'⟩
  refine ⟨hf, .of_eq (by rw [hstore]) (by rw [hstore]),
    fun hclient ↦ .inl (by rwa [hlistening] at hclient), fun hl ↦ .inr (.inl ?_),
    fun hk ↦ absurd hk (ne_closing_of_opens hopens), fun {m} hlive hactive ↦ .inl ?_,
    fun hid ↦ absurd hid (not_bound_of_opens hopens), fun hk' ↦ by cases hk'⟩
  · obtain rfl := Option.some.inj (hopens.symm.trans hl)
    rwa [hstore]
  · rcases hp with rfl | rfl
    · exact hlive
    · refine ⟨?_, hlive.2⟩
      rw [setLink_of_ne, hlive.1]
      rintro rfl
      exact hnone (hasRow_of_isActive hactive)

theorem Progress.goesOn {client : Nat} {listens : Bool} {k'' : Call} (h : Inv c q)
    (hk : q.calls i = some k) (hopens : k.opens = some (.ssh client)) (hcreates : k.creates = false)
    (hopens' : k''.opens = some (.ssh client)) (hcreates' : k''.creates = false)
    (hup : k''.awaitsShell = false → q.store.links (.ssh client) = .up)
    (howes : k''.owes c (after q i (q.store.listen client listens) (some k''))) :
    Progress c q i k (q.store.listen client listens) (some k'') := by
  have hf : Frame c q k (q.store.listen client listens) (some k'') := by
    refine ⟨.of_eq rfl, .of_eq rfl, .of_eq rfl, fun hk' hl' ↦ .inl ?_⟩
    obtain rfl := Option.some.inj hk'
    exact hopens.trans (hopens'.symm.trans hl')
  refine ⟨hf, .of_eq rfl rfl, fun {client'} hclient ↦ ?_,
    fun hl ↦ .inl ⟨k'', rfl, hopens'.trans (hopens.symm.trans hl)⟩,
    fun hk ↦ absurd hk (ne_closing_of_opens hopens), fun hlive _ ↦ .inl hlive,
    fun hid ↦ absurd hid (not_bound_of_opens hopens), fun {m} hm ↦ ?_⟩
  · by_cases hne : client' = client
    · subst hne
      exact .inr ⟨hopens, hcreates⟩
    · exact .inl ((listen_of_ne hne).symm.trans hclient)
  · obtain rfl := Option.some.inj hm
    refine ⟨howes, fun {m'} hm' ↦ ?_⟩
    obtain rfl := Option.some.inj (hopens'.symm.trans hm')
    refine ⟨h.used hk hopens, hup, fun htrue ↦ ?_, fun _ ↦ h.opened hk hopens hcreates⟩
    rw [hcreates'] at htrue
    cases htrue

theorem Progress.givesUp {client : Nat} {start : Start} (h : Inv c q)
    (hk : q.calls i = some (.sshShell client start)) :
    Progress c q i (.sshShell client start) (q.store.listen client false)
      (some (failed c client)) := by
  have hf : Frame c q (.sshShell client start) (q.store.listen client false)
      (some (failed c client)) := by
    refine ⟨.of_eq rfl, .of_eq rfl, .of_eq rfl, fun hk' hl' ↦ ?_⟩
    obtain rfl := Option.some.inj hk'
    cases hl'
  have hrow := (h.opened hk rfl rfl).1
  have hhub : q.store.hub (c.key (.ssh client)) = none := by
    by_contra hhub
    obtain ⟨-, client', hkey, hnot⟩ := h.hub hhub
    obtain rfl := Link.ssh.inj (c.key_inj hkey)
    exact hnot ⟨i, _, hk, rfl⟩
  have hover : Over c (after q i (q.store.listen client false) (some (failed c client)))
      (c.key (.ssh client)) := by
    refine ⟨⟨hrow, hhub, fun l hl ↦ ?_⟩, fun l hl hlive ↦ ?_⟩
    · obtain rfl := c.key_inj hl
      rintro ⟨⟨j, k'', hj, hl'⟩, -⟩
      rcases calls_after hj with ⟨-, hk'⟩ | ⟨hne, hold⟩
      · obtain rfl := Option.some.inj hk'
        cases hl'
      · exact hne (h.once hold hk hl' rfl)
    · obtain rfl := c.key_inj hl
      exact absurd hhub (Option.isSome_iff_ne_none.mp (hlive.2 client rfl))
  refine ⟨hf, .of_eq rfl rfl, fun {client'} hclient ↦ ?_, fun {l} hl ↦ ?_, fun hk ↦ (by cases hk),
    fun hlive _ ↦ .inl hlive, fun hid ↦ hid.elim, fun hm ↦ ?_⟩
  · by_cases hne : client' = client
    · subst hne
      exact .inr ⟨rfl, rfl⟩
    · exact .inl ((listen_of_ne hne).symm.trans hclient)
  · obtain rfl := Option.some.inj hl
    exact .inr (.inr (.inr ⟨client, rfl, .inr ⟨_, rfl, .inl rfl⟩⟩))
  · obtain rfl := Option.some.inj hm
    refine ⟨⟨hover, fun id hid ↦ absurd hid List.not_mem_nil⟩, fun hl ↦ ?_⟩
    cases hl

theorem Progress.registers {client : Nat} {start : Start} (h : Inv c q)
    (hk : q.calls i = some (.sshRecord client start)) :
    Progress c q i (.sshRecord client start)
      (q.store.register (c.key (.ssh client)) start) none := by
  have hup : q.store.links (.ssh client) = .up := h.up hk rfl rfl
  have hself : (q.store.register (c.key (.ssh client)) start).hub (c.key (.ssh client)) =
      some ⟨start.orgId, start.recordingKey⟩ := Function.update_self ..
  have hne : ∀ {id}, id ≠ c.key (.ssh client) →
      (q.store.register (c.key (.ssh client)) start).hub id = q.store.hub id :=
    fun hid ↦ Function.update_of_ne hid ..
  have hkeeps : ∀ {id}, q.store.hub id ≠ none →
      (q.store.register (c.key (.ssh client)) start).hub id ≠ none := by
    intro id hid
    by_cases hkey : id = c.key (.ssh client)
    · rw [hkey, hself]
      exact Option.some_ne_none _
    · rwa [hne hkey]
  have hhubs : Hubs c q (.sshRecord client start)
      (q.store.register (c.key (.ssh client)) start) none := by
    refine ⟨fun {id} hid ↦ ?_, fun hid ↦ .inl (hkeeps hid)⟩
    by_cases hkey : id = c.key (.ssh client)
    · exact .inr ⟨client, hkey.symm, rfl, rfl, rfl, rfl⟩
    · exact .inl (by rwa [hne hkey] at hid)
  refine ⟨⟨.of_eq rfl, .of_eq rfl, hhubs, fun hk' ↦ by cases hk'⟩, .of_eq rfl rfl, .inl,
    fun {l} hl ↦ ?_, fun hk ↦ (by cases hk), fun {l} hlive _ ↦ .inl ⟨hlive.1, fun client' hclient ↦ ?_⟩,
    fun hid ↦ hid.elim, fun hk' ↦ by cases hk'⟩
  · obtain rfl := Option.some.inj hl
    refine .inr (.inr (.inr ⟨client, rfl, .inl ⟨hup, fun client' _ ↦ ?_⟩⟩))
    rw [hself]
    rfl
  · exact Option.isSome_iff_ne_none.mpr
      (hkeeps (Option.isSome_iff_ne_none.mp (hlive.2 client' hclient)))

theorem Progress.knows {n : Nat} (h : Inv c q) (hk : q.calls i = some (.rdpCreated n)) :
    Progress c q i (.rdpCreated n) (q.store.know n (c.key (.rdp n))) none := by
  have hup : q.store.links (.rdp n) = .up := h.up hk rfl rfl
  have hkey : ∀ {m}, c.key (.rdp m) = c.key (.rdp n) → m = n :=
    fun hm ↦ Link.rdp.inj (c.key_inj hm)
  have hself : (q.store.know n (c.key (.rdp n))).rdpSessionByConn n = some (c.key (.rdp n)) ∧
      (q.store.know n (c.key (.rdp n))).rdpConnBySession (c.key (.rdp n)) = some n :=
    ⟨Function.update_self .., Function.update_self ..⟩
  have hsession : ∀ {m}, m ≠ n → (q.store.know n (c.key (.rdp n))).rdpSessionByConn m =
      q.store.rdpSessionByConn m := fun hm ↦ Function.update_of_ne hm ..
  have hconn : ∀ {id}, id ≠ c.key (.rdp n) →
      (q.store.know n (c.key (.rdp n))).rdpConnBySession id = q.store.rdpConnBySession id :=
    fun hid ↦ Function.update_of_ne hid ..
  -- what the maps said before
  have hold : ∀ {id}, q.store.rdpSessionByConn n ≠ some id :=
    fun hid ↦ (h.known hid).2.2 ⟨i, _, hk, rfl⟩
  have hmaps : Maps c q (.rdpCreated n) (q.store.know n (c.key (.rdp n))) none := by
    refine ⟨fun {m id} hid ↦ ?_, fun {m id} hid ↦ ?_, fun {m} _ hm hid ↦ ?_, fun {m id} hid ↦ ?_⟩
    · by_cases hm : m = n
      · subst hm
        exact .inr ⟨Option.some.inj (hself.1.symm.trans hid), rfl, rfl, rfl⟩
      · exact .inl (by rwa [hsession hm] at hid)
    · by_cases hm : id = c.key (.rdp n)
      · subst hm
        obtain rfl := Option.some.inj (hself.2.symm.trans hid)
        exact .inr ⟨rfl, rfl, rfl, rfl⟩
      · exact .inl (by rwa [hconn hm] at hid)
    · by_cases hne : m = n
      · subst hne
        exact hself
      · rw [hsession hne, hconn fun hkey' ↦ hne (hkey hkey')]
        exact ⟨hm, hid⟩
    · by_cases hne : m = n
      · subst hne
        exact absurd hid hold
      · exact .inl (by rwa [hsession hne])
  refine ⟨⟨.of_eq rfl, .of_eq rfl, .of_eq rfl, fun hk' ↦ by cases hk'⟩, hmaps, .inl,
    fun {l} hl ↦ ?_, fun hk ↦ (by cases hk), fun hlive _ ↦ .inl hlive, fun hid ↦ hid.elim,
    fun hk' ↦ by cases hk'⟩
  obtain rfl := Option.some.inj hl
  exact .inr (.inr (.inl ⟨n, rfl, hup, hself⟩))

end

end Shellius.Sessions.Listing
