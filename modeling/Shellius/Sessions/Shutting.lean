import Shellius.Sessions.Opening

/-!
# Closing a connection and its row

The steps of the calls that close something.  Whoever takes a terminal out of the hub, or a tunnel
out of the maps, is going to close its row; whoever closes a row has found that its session is
over, or closes the tunnel next.
-/

namespace Shellius.Sessions.Listing

open Lib Terminal

section

variable {c : Columns} {toISOString : Millis → String} {q : Pool Process Call} {p p' : Process}
  {i j : Nat} {k : Call} {k' : Option Call} {l : Link} {id : Id} {ok : Bool}

theorem of_update_none {α β : Type*} [DecidableEq α] {f : α → Option β} {x y : α} {b : β}
    (h : Function.update f x none y = some b) : f y = some b := by
  by_cases hy : y = x
  · rw [hy, Function.update_self] at h
    cases h
  · rwa [Function.update_of_ne hy] at h

/-! ## The steps that close a connection -/

theorem Inv.over_of_leaves (h : Inv c q) (hk : q.calls i = some k) (hf : Frame c q k p' k')
    (hhub : q.store.hub id ≠ none) (hleaves : p'.hub id = none) :
    Over c (after q i p' k') id := by
  obtain ⟨hactive, client, rfl, hopening⟩ := h.hub hhub
  have hrow := hasRow_of_isActive hactive
  refine ⟨⟨hf.row hrow, hleaves, fun l hl ↦ ?_⟩, fun l hl hlive ↦ ?_⟩
  · obtain rfl := c.key_inj hl
    exact fun hcoming ↦ hf.notOpening h hk hrow hopening hcoming.1
  · obtain rfl := c.key_inj hl
    exact absurd hleaves (Option.isSome_iff_ne_none.mp (hlive.2 client rfl))

theorem owes_afterTake {live : Sessions.Live} {reason : String} {extra : List (String × String)}
    (h : Over c q id) : Owes c q (Store.afterTake live id reason extra) := by
  unfold Store.afterTake
  split
  · exact h
  · exact h

theorem closes_afterTake {live : Sessions.Live} {reason : String} {extra : List (String × String)} :
    closes p (Store.afterTake live id reason extra) id := by
  unfold Store.afterTake
  split
  · rfl
  · rfl

theorem Progress.leaves {live : Sessions.Live} {reason : String} {extra : List (String × String)}
    {ids : List Id} {pass : Pass} (h : Inv c q) (hk : q.calls i = some k) (hopens : k.opens = none)
    (hclosing : ∀ {id ids pass}, k ≠ .closing (.closeConn id) ids pass)
    (hbound : ∀ {id'}, k.bound c q.store id' → id' = id ∨ id' ∈ ids)
    (hpass : OwesPass c q ids pass) (hlive : q.store.hub id = some live)
    (hhub : p'.hub = Function.update q.store.hub id none)
    (hsessions : p'.sessions = q.store.sessions)
    (hsession : p'.rdpSessionByConn = q.store.rdpSessionByConn)
    (hconn : p'.rdpConnBySession = q.store.rdpConnBySession)
    (hlistening : p'.listening = q.store.listening) (hlinks : Links c q k p')
    (hup : ∀ {l}, c.key l ≠ id → q.store.links l = .up → p'.links l = .up) :
    Progress c q i k p' (some (.closing (Store.afterTake live id reason extra) ids pass)) := by
  have hself : p'.hub id = none := by rw [hhub, Function.update_self]
  have hne : ∀ {id'}, id' ≠ id → p'.hub id' = q.store.hub id' := by
    intro id' hid
    rw [hhub, Function.update_of_ne hid]
  have hnext : Next (some (.closing (Store.afterTake live id reason extra) ids pass))
      fun k'' ↦ k''.bound c p' id := ⟨_, rfl, .inl closes_afterTake⟩
  have hhubs : Hubs c q k p' (some (.closing (Store.afterTake live id reason extra) ids pass)) := by
    refine ⟨fun {id'} hid ↦ .inl ?_, fun {id'} hid ↦ ?_⟩
    · by_cases hid' : id' = id
      · rw [hid'] at hid
        exact absurd hself hid
      · rwa [hne hid'] at hid
    · by_cases hid' : id' = id
      · subst hid'
        exact .inr hnext
      · exact .inl (by rwa [hne hid'])
  have hf : Frame c q k p' (some (.closing (Store.afterTake live id reason extra) ids pass)) := by
    refine ⟨.of_eq hsessions, hlinks, hhubs, fun hk' hl' ↦ ?_⟩
    obtain rfl := Option.some.inj hk'
    cases hl'
  have hover := h.over_of_leaves hk hf (by rw [hlive]; exact Option.some_ne_none _) hself
  refine ⟨hf, .of_eq hsession hconn, fun hclient ↦ .inl (by rwa [hlistening] at hclient),
    fun hl ↦ ?_, fun hk ↦ absurd hk hclosing, fun {l} hl _ ↦ ?_, fun hid _ ↦ ?_, fun hm ↦ ?_⟩
  · rw [hopens] at hl
    cases hl
  · by_cases hid : c.key l = id
    · rw [hid]
      exact .inr hnext
    · refine .inl ⟨hup hid hl.1, fun client hclient ↦ ?_⟩
      rw [hne hid]
      exact hl.2 client hclient
  · rcases hbound hid with rfl | hid
    · exact .inr hnext
    · exact .inr ⟨_, rfl, .inr hid⟩
  · obtain rfl := Option.some.inj hm
    refine ⟨⟨owes_afterTake hover, hf.owesPass h hk hpass⟩, fun hl ↦ ?_⟩
    cases hl

theorem Progress.drops {client : Nat} (h : Inv c q)
    (hup : q.store.links (.ssh client) = .up) (hhub : q.store.hub (c.key (.ssh client)) = none)
    (hopening : ∀ {j k''}, q.calls j = some k'' → k''.opens = some (.ssh client) →
      k''.awaitsShell = true) :
    Progress c q i (.clientClose client) (q.store.setLink (.ssh client) .down)
      (if q.store.listening client then some (failed c client) else none) := by
  have hopens : Opens q (.clientClose client)
      (if q.store.listening client then some (failed c client) else none) := by
    refine opens_of_none fun {k''} hk' ↦ ?_
    split at hk'
    · obtain rfl := Option.some.inj hk'
      rfl
    · cases hk'
  have hlinks : Links c q (.clientClose client) (q.store.setLink (.ssh client) .down) :=
    .closed rfl (.inr hopening) (fun _ ↦ hhub) (by rw [hup]; decide)
  have hf : Frame c q (.clientClose client) (q.store.setLink (.ssh client) .down)
      (if q.store.listening client then some (failed c client) else none) :=
    ⟨.of_eq rfl, hlinks, .of_eq rfl, hopens⟩
  refine ⟨hf, .of_eq rfl rfl, .inl, fun hl ↦ (by cases hl), fun hk ↦ (by cases hk),
    fun {l} hlive _ ↦ .inl ⟨?_, hlive.2⟩, fun hid ↦ hid.elim, fun {k''} hm ↦ ?_⟩
  · rw [setLink_of_ne, hlive.1]
    rintro rfl
    exact absurd hhub (Option.isSome_iff_ne_none.mp (hlive.2 client rfl))
  · split at hm
    · rename_i hlistening
      obtain rfl := Option.some.inj hm
      refine ⟨⟨⟨⟨h.listening hlistening, hhub, fun l hl ↦ ?_⟩, fun l hl hlive ↦ ?_⟩,
        fun id hid ↦ absurd hid List.not_mem_nil⟩, fun hl ↦ (by cases hl)⟩
      · obtain rfl := c.key_inj hl
        rintro ⟨-, hup'⟩
        cases setLink_self.symm.trans hup'
      · obtain rfl := c.key_inj hl
        cases setLink_self.symm.trans hlive.1
    · cases hm

theorem Progress.closesTunnel {n : Nat} (h : Inv c q)
    (hup : q.store.links (.rdp n) = .up) (hopening : ¬ Opening q (.rdp n)) :
    Progress c q i (.tunnelClose n) (q.store.setLink (.rdp n) .down)
      (some (.alone (.lookup n))) := by
  have hopens : Opens q (.tunnelClose n) (some (.alone (.lookup n))) := opens_some rfl
  have hlinks : Links c q (.tunnelClose n) (q.store.setLink (.rdp n) .down) := by
    refine .closed rfl (.inr fun hj hl ↦ absurd ⟨_, _, hj, hl⟩ hopening) (fun hl ↦ ?_) ?_
    · cases hl
    · rw [hup]
      decide
  refine ⟨⟨.of_eq rfl, hlinks, .of_eq rfl, hopens⟩, .of_eq rfl rfl, .inl, fun hl ↦ (by cases hl),
    fun hk ↦ (by cases hk), fun {l} hlive hactive ↦ ?_, fun hid ↦ hid.elim, fun hm ↦ ?_⟩
  · by_cases hl : l = .rdp n
    · subst hl
      rcases h.mapped (hasRow_of_isActive hactive) hup with hopen | ⟨hsession, -⟩
      · exact absurd hopen hopening
      · exact .inr ⟨_, rfl, .inl hsession⟩
    · refine .inl ⟨?_, hlive.2⟩
      rw [setLink_of_ne hl, hlive.1]
  · obtain rfl := Option.some.inj hm
    refine ⟨⟨setLink_self, fun id hid ↦ absurd hid List.not_mem_nil⟩, fun hl ↦ ?_⟩
    cases hl

/-- An RDP session is ended, and its tunnel closed if it is known. -/
theorem Progress.endsRdp {reason : String} (h : Inv c q)
    (hk : q.calls i = some (.endRdp id reason)) (hrow : HasRow q.store.toStore id)
    (hrdp : ∀ client, c.key (.ssh client) ≠ id) (hcareful : ∀ l, c.key l = id → ¬ Coming q l) :
    Progress c q i (.endRdp id reason) (q.store.dropConn id)
      (some (.alone (.readEnd id .terminated (some [("endReason", reason)])))) := by
  have hhub : q.store.hub id = none := by
    by_contra hhub
    obtain ⟨-, client, hkey, -⟩ := h.hub hhub
    exact hrdp client hkey
  have hopens : Opens q (.endRdp id reason)
      (some (.alone (.readEnd id .terminated (some [("endReason", reason)])))) := opens_some rfl
  cases hconn : q.store.rdpConnBySession id with
  | none =>
    have hp : q.store.dropConn id = q.store := by rw [Process.dropConn, hconn]
    rw [hp]
    refine .quiet rfl (fun {k''} hk' ↦ ?_) (fun hk ↦ (by cases hk)) fun hid ↦ hid.elim
    obtain rfl := Option.some.inj hk'
    refine ⟨rfl, fun hf ↦ ⟨hf.keepsOver h hk ⟨⟨hrow, hhub, hcareful⟩, fun l hl hlive ↦ ?_⟩,
      fun id hid ↦ absurd hid List.not_mem_nil⟩⟩
    cases l with
    | ssh client => exact hrdp client hl
    | rdp n =>
      rcases h.mapped (hl ▸ hrow) hlive.1 with hopen | ⟨-, hmap⟩
      · exact hcareful _ hl ⟨hopen, hlive.1⟩
      · rw [hl, hconn] at hmap
        cases hmap
  | some n =>
    obtain ⟨rfl, -, hopening⟩ := h.connected hconn
    have hp : q.store.dropConn (c.key (.rdp n)) =
        { q.store with
          rdpConnBySession :=
            Function.update q.store.rdpConnBySession (c.key (.rdp n)) none
          rdpSessionByConn := fun m ↦
            if q.store.rdpSessionByConn m = some (c.key (.rdp n)) then none
            else q.store.rdpSessionByConn m
          links := Function.update q.store.links (.rdp n) .down } := by
      rw [Process.dropConn, hconn]
    have hself : (q.store.dropConn (c.key (.rdp n))).links (.rdp n) = .down := by
      rw [hp]
      exact Function.update_self ..
    have hne : ∀ {l}, l ≠ .rdp n →
        (q.store.dropConn (c.key (.rdp n))).links l = q.store.links l := by
      intro l hl
      rw [hp]
      exact Function.update_of_ne hl ..
    have hlinks : Links c q (.endRdp (c.key (.rdp n)) reason)
        (q.store.dropConn (c.key (.rdp n))) := by
      refine .closed (by rw [hp]; rfl) (.inr fun hj hl ↦ absurd ⟨_, _, hj, hl⟩ hopening)
        (fun hl ↦ ?_) (h.used_of_row hrow)
      cases hl
    have hmaps : Maps c q (.endRdp (c.key (.rdp n)) reason)
        (q.store.dropConn (c.key (.rdp n)))
        (some (.alone (.readEnd (c.key (.rdp n)) .terminated (some [("endReason", reason)])))) := by
      refine ⟨fun {m id} hid ↦ .inl ?_, fun {m id} hid ↦ .inl ?_, fun {m} hm hsession hmap ↦ ?_,
        fun {m id} hid ↦ ?_⟩
      · rw [hp] at hid
        dsimp only at hid
        split at hid
        · cases hid
        · exact hid
      · rw [hp] at hid
        exact of_update_none hid
      · have hmn : m ≠ n := by
          rintro rfl
          cases hself.symm.trans hm
        have hkey : c.key (.rdp m) ≠ c.key (.rdp n) :=
          fun hkey ↦ hmn (Link.rdp.inj (c.key_inj hkey))
        rw [hp]
        refine ⟨?_, (Function.update_of_ne hkey ..).trans hmap⟩
        dsimp only
        rw [if_neg, hsession]
        rw [hsession]
        exact fun heq ↦ hkey (Option.some.inj heq)
      · by_cases hid' : id = c.key (.rdp n)
        · subst hid'
          exact .inr ⟨_, rfl, .inl rfl⟩
        · rw [hp]
          refine .inl ?_
          dsimp only
          rw [if_neg, hid]
          rw [hid]
          exact fun heq ↦ hid' (Option.some.inj heq)
    have hf : Frame c q (.endRdp (c.key (.rdp n)) reason) (q.store.dropConn (c.key (.rdp n)))
        (some (.alone (.readEnd (c.key (.rdp n)) .terminated
          (some [("endReason", reason)])))) :=
      ⟨.of_eq (by rw [hp]), hlinks, .of_eq (by rw [hp]), hopens⟩
    refine ⟨hf, hmaps, fun hclient ↦ .inl (by rwa [hp] at hclient), fun hl ↦ (by cases hl),
      fun hk ↦ (by cases hk), fun {l} hlive _ ↦ ?_, fun hid ↦ hid.elim, fun hm ↦ ?_⟩
    · by_cases hl : l = .rdp n
      · subst hl
        exact .inr ⟨_, rfl, .inl rfl⟩
      · refine .inl ⟨(hne hl).trans hlive.1, ?_⟩
        rw [hp]
        exact hlive.2
    · obtain rfl := Option.some.inj hm
      have hpast := hf.past h hk ⟨hrow, hhub, hcareful⟩
      refine ⟨⟨⟨hpast, fun l hl hlive ↦ ?_⟩, fun id hid ↦ absurd hid List.not_mem_nil⟩,
        fun hl ↦ (by cases hl)⟩
      obtain rfl := c.key_inj hl
      cases hself.symm.trans hlive.1

/-! ## The passes -/

theorem mem_staleIds : id ∈ p.staleIds ↔
    ∃ row ∈ p.sessions, row.id = id ∧ row.status = .active ∧ row.startedAt < p.now - staleMs := by
  rw [Process.staleIds, List.mem_map]
  simp only [List.mem_filter, decide_eq_true_eq]
  constructor
  · rintro ⟨row, ⟨hrow, hstatus, hold⟩, hid⟩
    exact ⟨row, hrow, hid, hstatus, hold⟩
  · rintro ⟨row, hrow, hid, hstatus, hold⟩
    exact ⟨row, ⟨hrow, hstatus, hold⟩, hid⟩

theorem mem_orphanIds : id ∈ p.orphanIds c ↔
    p.IsActive id ∧ ∃ client, c.key (.ssh client) = id := by
  have hany : (c.link id).any Link.isSsh = true ↔ ∃ client, c.key (.ssh client) = id := by
    constructor
    · intro h
      cases hl : c.link id with
      | none =>
        rw [hl] at h
        cases h
      | some l =>
        rw [hl] at h
        cases l with
        | ssh client => exact ⟨client, c.link_eq_some.mp hl⟩
        | rdp n => cases h
    · rintro ⟨client, hkey⟩
      rw [c.link_eq_some.mpr hkey]
      rfl
  rw [Process.orphanIds, List.mem_map, isActive_iff]
  simp only [List.mem_filter, decide_eq_true_eq, Bool.decide_and, Bool.and_eq_true]
  constructor
  · rintro ⟨row, ⟨hrow, hstatus, hssh⟩, rfl⟩
    exact ⟨⟨row, hrow, rfl, hstatus⟩, hany.mp hssh⟩
  · rintro ⟨⟨row, hrow, rfl, hstatus⟩, hssh⟩
    exact ⟨row, ⟨hrow, hstatus, hany.mpr hssh⟩, rfl⟩

theorem Inv.over (h : Inv c q) (hrow : HasRow q.store.toStore id)
    (hl : ∀ l, c.key l = id → ¬ Coming q l ∧ ¬ Live c q.store l) : Over c q id := by
  refine ⟨⟨hrow, ?_, fun l hkey ↦ (hl l hkey).1⟩, fun l hkey ↦ (hl l hkey).2⟩
  by_contra hhub
  obtain ⟨-, client, rfl, -⟩ := h.hub hhub
  exact (hl _ rfl).2 ⟨h.wired hhub, fun _ _ ↦ Option.isSome_iff_ne_none.mpr hhub⟩

theorem Progress.resumes {ids : List Id} {pass : Pass} (h : Inv c q) (hk : q.calls i = some k)
    (hopens : k.opens = none) (hpass : OwesPass c q ids pass)
    (hclosed : ∀ {n ids pass}, k = .closing (.closeConn (c.key (.rdp n))) ids pass →
      q.store.links (.rdp n) ≠ .up)
    (hgoes : ∀ {id}, k.bound c q.store id → q.store.IsActive id →
      q.store.hub id ≠ none ∨ id ∈ ids) :
    Progress c q i k q.store (resume ids pass) := by
  refine .quiet hopens (fun {k''} hk' ↦ ?_) hclosed fun hid hactive ↦
    (hgoes hid hactive).imp_right next_resume
  obtain ⟨-, rfl⟩ := resume_eq_some.mp hk'
  exact ⟨rfl, fun hf ↦ hf.owesPass h hk hpass⟩

/-! ## The steps that close a row -/

theorem hasRow_updateRow {s : Store} {f : Session → Session} {hf : ∀ row, (f row).id = row.id}
    {id' : Id} : HasRow (s.updateRow id f hf) id' ↔ HasRow s id' := by
  constructor
  · rintro ⟨row, hrow, rfl⟩
    obtain ⟨old, hold, rfl⟩ := mem_updateRow.mp hrow
    refine ⟨old, hold, ?_⟩
    split
    · exact (hf old).symm
    · rfl
  · rintro ⟨row, hrow, rfl⟩
    refine ⟨_, mem_updateRow.mpr ⟨row, hrow, rfl⟩, ?_⟩
    split
    · exact hf row
    · rfl

theorem hasRow_close {s : Store} {data : Closing} {id' : Id} :
    HasRow (s.close id data) id' ↔ HasRow s id' := by
  rw [Store.close]
  exact hasRow_updateRow

theorem hasRow_saveKey {s : Store} {recordingKey : String} {id' : Id} :
    HasRow (s.saveKey id recordingKey) id' ↔ HasRow s id' := by
  rw [Store.saveKey]
  exact hasRow_updateRow

theorem isActive_close {s : Store} {data : Closing} {id' : Id} :
    (s.close id data).IsActive id' ↔ s.IsActive id' ∧ id' ≠ id := by
  rw [isActive_iff, isActive_iff]
  constructor
  · rintro ⟨row, hrow, rfl, hstatus⟩
    obtain ⟨old, hold, rfl⟩ := mem_updateRow.mp hrow
    by_cases hid : old.id = id
    · rw [if_pos hid] at hstatus
      cases hstatus
    · rw [if_neg hid] at hstatus ⊢
      exact ⟨⟨old, hold, rfl, hstatus⟩, hid⟩
  · rintro ⟨⟨row, hrow, rfl, hstatus⟩, hid⟩
    exact ⟨row, mem_updateRow.mpr ⟨row, hrow, if_neg hid⟩, rfl, hstatus⟩

theorem isActive_saveKey {s : Store} {recordingKey : String} {id' : Id} :
    (s.saveKey id recordingKey).IsActive id' ↔ s.IsActive id' := by
  rw [isActive_iff, isActive_iff]
  constructor
  · rintro ⟨row, hrow, rfl, hstatus⟩
    obtain ⟨old, hold, rfl⟩ := mem_updateRow.mp hrow
    refine ⟨old, hold, ?_⟩
    split at hstatus
    · rename_i hid
      rw [if_pos hid]
      exact ⟨rfl, hstatus⟩
    · rename_i hid
      rw [if_neg hid]
      exact ⟨rfl, hstatus⟩
  · rintro ⟨row, hrow, rfl, hstatus⟩
    obtain ⟨row', hrow', hid, hstatus', -⟩ := exists_saveKey hrow
    exact ⟨row', hrow', hid, hstatus'.trans hstatus⟩

section

variable {ids : List Id} {pass : Pass} {s : Sessions.Call}

theorem Progress.continues {s' : Sessions.Call} (h : Inv c q)
    (hk : q.calls i = some (.closing s ids pass))
    (hclosed : ∀ {n}, s = .closeConn (c.key (.rdp n)) → q.store.links (.rdp n) ≠ .up)
    (howes : Frame c q (.closing s ids pass) q.store (some (.closing s' ids pass)) →
      Owes c (after q i q.store (some (.closing s' ids pass))) s')
    (hgoes : ∀ {id}, closes q.store s id → closes q.store s' id) :
    Progress c q i (.closing s ids pass) q.store (some (.closing s' ids pass)) := by
  refine .quiet rfl (fun {k''} hk' ↦ ?_) (fun heq ↦ hclosed (Call.closing.inj heq).1)
    fun hid _ ↦ .inr ⟨_, rfl, ?_⟩
  · obtain rfl := Option.some.inj hk'
    exact ⟨rfl, fun hf ↦ ⟨howes hf, hf.owesPass h hk (h.owes hk).2⟩⟩
  · exact hid.imp_left hgoes

theorem Progress.done (h : Inv c q) (hk : q.calls i = some (.closing s ids pass))
    (hclosed : ∀ {n}, s = .closeConn (c.key (.rdp n)) → q.store.links (.rdp n) ≠ .up)
    (hgoes : ∀ {id}, ¬ closes q.store s id) :
    Progress c q i (.closing s ids pass) q.store (resume ids pass) :=
  .resumes h hk rfl (h.owes hk).2 (fun heq ↦ hclosed (Call.closing.inj heq).1)
    fun hid _ ↦ .inr (hid.resolve_left hgoes)

theorem Progress.writes {data : Closing} {close : Bool} (h : Inv c q)
    (hk : q.calls i = some (.closing (.write id data close) ids pass)) :
    Progress c q i (.closing (.write id data close) ids pass)
      { q.store with toStore := q.store.close id data }
      (if close then some (.closing (.closeConn id) ids pass) else resume ids pass) := by
  have howes := h.owes hk
  have hpast : Past c q id := by
    cases close with
    | false => exact howes.1.toPast
    | true => exact howes.1
  have hrows : Rows c q (.closing (.write id data close) ids pass)
      { q.store with toStore := q.store.close id data }
      (if close then some (.closing (.closeConn id) ids pass) else resume ids pass) := by
    refine ⟨hasRow_close.mpr, fun hrow ↦ .inl (hasRow_close.mp hrow),
      fun hactive ↦ .inl (isActive_close.mp hactive).1, fun {id'} hactive ↦ ?_⟩
    by_cases hid : id' = id
    · subst hid
      cases close with
      | false => exact .inr (.inl howes.1)
      | true => exact .inr (.inr ⟨hpast, _, rfl, ids, pass, rfl⟩)
    · exact .inl (isActive_close.mpr ⟨hactive, hid⟩)
  refine .of_live rfl hrows (.of_eq rfl rfl) rfl rfl rfl (fun {k''} hk' ↦ ?_)
    (fun heq ↦ by cases heq) fun {id'} hid hactive ↦ .inr ?_
  · cases close with
    | false =>
      obtain ⟨-, rfl⟩ := resume_eq_some.mp hk'
      exact ⟨rfl, fun hf ↦ hf.owesPass h hk howes.2⟩
    | true =>
      obtain rfl := Option.some.inj hk'
      refine ⟨rfl, fun hf ↦ ⟨⟨hf.past h hk hpast, fun hactive ↦ ?_⟩, hf.owesPass h hk howes.2⟩⟩
      exact (isActive_close.mp hactive).2 rfl
  · have hid' : id' ∈ ids := by
      rcases hid with rfl | hid
      · exact absurd rfl (isActive_close.mp hactive).2
      · exact hid
    cases close with
    | false => exact next_resume hid'
    | true => exact ⟨_, rfl, .inr hid'⟩

theorem Progress.saves {reason : String} {extra : List (String × String)} {recordingKey : String}
    (h : Inv c q) (hk : q.calls i = some (.closing (.saveKey id reason extra recordingKey) ids pass)) :
    Progress c q i (.closing (.saveKey id reason extra recordingKey) ids pass)
      { q.store with toStore := q.store.saveKey id recordingKey }
      (some (.closing (.readEnd id (Hub.statusFor reason) (some (Hub.metadataPatch reason extra)))
        ids pass)) := by
  have howes := h.owes hk
  refine .of_live rfl ⟨hasRow_saveKey.mpr, fun hrow ↦ .inl (hasRow_saveKey.mp hrow),
      fun hactive ↦ .inl (isActive_saveKey.mp hactive),
      fun hactive ↦ .inl (isActive_saveKey.mpr hactive)⟩ (.of_eq rfl rfl) rfl rfl rfl
    (fun {k''} hk' ↦ ?_) (fun heq ↦ by cases heq) fun hid _ ↦ .inr ⟨_, rfl, hid⟩
  obtain rfl := Option.some.inj hk'
  exact ⟨rfl, fun hf ↦ ⟨hf.keepsOver h hk howes.1, hf.owesPass h hk howes.2⟩⟩

/-- The handler of `close` finds the session of a tunnel. -/
theorem Progress.finds {n : Nat} (h : Inv c q)
    (hk : q.calls i = some (.closing (.lookup n) ids pass))
    (hsession : q.store.rdpSessionByConn n = some id) :
    Progress c q i (.closing (.lookup n) ids pass)
      { q.store with toStore := effect q.store.toStore (.lookup n) }
      (some (.closing (.readEnd id .ended none) ids pass)) := by
  have howes := h.owes hk
  have hdown : q.store.links (.rdp n) = .down := howes.1
  obtain ⟨rfl, hrow, hopening⟩ := h.known hsession
  have heffect : effect q.store.toStore (.lookup n) =
      { q.store.toStore with
        rdpSessionByConn := Function.update q.store.rdpSessionByConn n none
        rdpConnBySession := Function.update q.store.rdpConnBySession (c.key (.rdp n)) none } := by
    rw [effect, hsession]
  rw [heffect]
  refine .of_live rfl (.of_eq rfl) ⟨fun {m id} hid ↦ .inl ?_, fun {m id} hid ↦ .inl ?_,
    fun {m} hup hm hmap ↦ ?_, fun {m id} hid ↦ ?_⟩ rfl rfl rfl (fun {k''} hk' ↦ ?_)
    (fun heq ↦ by cases heq) fun hid _ ↦ .inr ⟨_, rfl, ?_⟩
  · exact of_update_none hid
  · exact of_update_none hid
  · have hne : m ≠ n := by
      rintro rfl
      cases hdown.symm.trans hup
    have hkey : c.key (.rdp m) ≠ c.key (.rdp n) := fun hkey ↦ hne (Link.rdp.inj (c.key_inj hkey))
    exact ⟨(Function.update_of_ne hne ..).trans hm, (Function.update_of_ne hkey ..).trans hmap⟩
  · by_cases hm : m = n
    · subst hm
      obtain rfl := Option.some.inj (hsession.symm.trans hid)
      exact .inr ⟨_, rfl, .inl rfl⟩
    · exact .inl ((Function.update_of_ne hm ..).trans hid)
  · obtain rfl := Option.some.inj hk'
    refine ⟨rfl, fun hf ↦ ⟨hf.keepsOver h hk (h.over hrow fun l hl ↦ ?_), hf.owesPass h hk howes.2⟩⟩
    obtain rfl := c.key_inj hl
    refine ⟨fun hcoming ↦ hopening hcoming.1, fun hlive ↦ ?_⟩
    cases hdown.symm.trans hlive.1
  · rcases hid with hid | hid
    · exact .inl (Option.some.inj (hsession.symm.trans hid))
    · exact .inr hid

theorem Progress.hasNoTunnel (h : Inv c q)
    (hk : q.calls i = some (.closing (.closeConn id) ids pass))
    (hconn : q.store.rdpConnBySession id = none) :
    Progress c q i (.closing (.closeConn id) ids pass)
      { q.store with toStore := effect q.store.toStore (.closeConn id) } (resume ids pass) := by
  have hsame : ({ q.store with toStore := effect q.store.toStore (.closeConn id) } : Process) =
      q.store := by
    have hupdate : Function.update q.store.rdpConnBySession id none = q.store.rdpConnBySession := by
      rw [← hconn]
      exact Function.update_eq_self ..
    rw [effect, hupdate]
  rw [hsame]
  refine .done h hk (fun {n} heq hup ↦ ?_) not_false
  obtain rfl := Sessions.Call.closeConn.inj heq
  have hpast := (h.owes hk).1.1
  rcases h.mapped hpast.row hup with hopen | ⟨-, hmap⟩
  · exact hpast.settled _ rfl ⟨hopen, hup⟩
  · rw [hconn] at hmap
    cases hmap

theorem Progress.findsClosed {n : Nat} (h : Inv c q)
    (hk : q.calls i = some (.closing (.closeConn id) ids pass))
    (hconn : q.store.rdpConnBySession id = some n) (hup : q.store.links (.rdp n) ≠ .up) :
    Progress c q i (.closing (.closeConn id) ids pass)
      { q.store with toStore := effect q.store.toStore (.closeConn id) } (resume ids pass) := by
  obtain ⟨rfl, -, -⟩ := h.connected hconn
  refine .of_live rfl (.of_eq rfl) ⟨.inl, fun {m id} hid ↦ .inl ?_, fun {m} hup' hm hmap ↦ ?_, .inl⟩
    rfl rfl rfl (fun {k''} hk' ↦ ?_) (fun {m _ _} heq ↦ ?_) fun hid _ ↦ .inr ?_
  · exact of_update_none hid
  · refine ⟨hm, (Function.update_of_ne (fun hkey ↦ ?_) ..).trans hmap⟩
    obtain rfl := Link.rdp.inj (c.key_inj hkey)
    exact hup hup'
  · obtain ⟨-, rfl⟩ := resume_eq_some.mp hk'
    exact ⟨rfl, fun hf ↦ hf.owesPass h hk (h.owes hk).2⟩
  · obtain rfl := Link.rdp.inj (c.key_inj (Sessions.Call.closeConn.inj (Call.closing.inj heq).1))
    exact hup
  · exact next_resume (hid.resolve_left not_false)

/-- The tunnel of a session that was terminated is closed. -/
theorem Progress.shuts {n : Nat} (h : Inv c q)
    (hk : q.calls i = some (.closing (.closeConn id) ids pass))
    (hconn : q.store.rdpConnBySession id = some n) :
    Progress c q i (.closing (.closeConn id) ids pass)
      (Process.setLink { q.store with toStore := effect q.store.toStore (.closeConn id) }
        (.rdp n) .down)
      (some (.closing (.lookup n) ids pass)) := by
  obtain ⟨rfl, hrow, hopening⟩ := h.connected hconn
  have howes := h.owes hk
  have hlinks : Links c q (.closing (.closeConn (c.key (.rdp n))) ids pass)
      (Process.setLink
        { q.store with toStore := effect q.store.toStore (.closeConn (c.key (.rdp n))) }
        (.rdp n) .down) := by
    refine .closed rfl (.inr fun hj hl ↦ absurd ⟨_, _, hj, hl⟩ hopening) (fun hl ↦ ?_)
      (h.used_of_row hrow)
    cases hl
  have hf : Frame c q (.closing (.closeConn (c.key (.rdp n))) ids pass)
      (Process.setLink
        { q.store with toStore := effect q.store.toStore (.closeConn (c.key (.rdp n))) }
        (.rdp n) .down)
      (some (.closing (.lookup n) ids pass)) := by
    exact ⟨.of_eq rfl, hlinks, .of_eq rfl, opens_some rfl⟩
  refine ⟨hf, ⟨.inl, fun {m id} hid ↦ .inl ?_, fun {m} hup' hm hmap ↦ ?_, .inl⟩, .inl,
    fun hl ↦ (by cases hl), fun {m _ _} heq ↦ ?_, fun {l} hlive hactive ↦ ?_,
    fun hid _ ↦ .inr ⟨_, rfl, .inr (hid.resolve_left not_false)⟩, fun hm ↦ ?_⟩
  · exact of_update_none hid
  · refine ⟨hm, (Function.update_of_ne (fun hkey ↦ ?_) ..).trans hmap⟩
    obtain rfl := Link.rdp.inj (c.key_inj hkey)
    cases setLink_self.symm.trans hup'
  · obtain rfl := Link.rdp.inj (c.key_inj (Sessions.Call.closeConn.inj (Call.closing.inj heq).1))
    rw [setLink_self]
    decide
  · by_cases hl : l = .rdp n
    · subst hl
      exact absurd hactive howes.1.2
    · exact .inl ⟨(setLink_of_ne hl).trans hlive.1, hlive.2⟩
  · obtain rfl := Option.some.inj hm
    exact ⟨⟨setLink_self, hf.owesPass h hk howes.2⟩, fun hl ↦ (by cases hl)⟩

theorem progress_closing (h : Inv c q) (hk : q.calls i = some (.closing s ids pass))
    (hcareful : ∀ orgId id byUserId close, s = .readTerminate orgId id byUserId close →
      (q.store.terminable orgId id).isSome = true →
      q.store.hub id = none ∧ ∀ l, c.key l = id → ¬ Coming q l) :
    Progress c q i (.closing s ids pass)
      (act c toISOString q.store ok (.closing s ids pass)).1
      (act c toISOString q.store ok (.closing s ids pass)).2 := by
  have howes := h.owes hk
  cases s with
  | readEnd id status patch =>
    obtain ⟨row, hrow, hid⟩ := howes.1.row
    have hfind : q.store.sessions.find id = some row := Keyed.find_eq_some.mpr ⟨hrow, hid⟩
    have hnext : Sessions.next toISOString q.store.toStore ok (.readEnd id status patch) =
        some (.write id (endData q.store.toStore row status patch) false) := by
      rw [Sessions.next, hfind]
      rfl
    simp only [act, effect, hnext]
    exact .continues h hk (fun heq ↦ by cases heq) (fun hf ↦ hf.keepsOver h hk howes.1) fun hid ↦ hid
  | readTerminate orgId id byUserId close =>
    cases hrow : q.store.terminable orgId id with
    | none =>
      have hnext : Sessions.next toISOString q.store.toStore ok
          (.readTerminate orgId id byUserId close) = none := by
        rw [Sessions.next, hrow]
        rfl
      simp only [act, effect, hnext]
      exact .done h hk (fun heq ↦ by cases heq) not_false
    | some row =>
      have hnext : Sessions.next toISOString q.store.toStore ok
          (.readTerminate orgId id byUserId close) = some (.write id
            (terminateData toISOString q.store.toStore row byUserId) close) := by
        rw [Sessions.next, hrow]
        rfl
      simp only [act, effect, hnext]
      obtain ⟨hhub, hsettled⟩ := hcareful orgId id byUserId close rfl (by rw [hrow]; rfl)
      obtain ⟨hfind, -⟩ := Option.filter_eq_some_iff.mp hrow
      obtain ⟨hmem, hid⟩ := Keyed.find_eq_some.mp hfind
      refine .continues h hk (fun heq ↦ by cases heq) (fun hf ↦ ?_) fun hid ↦ hid.elim
      obtain rfl : close = true := howes.1
      exact hf.past h hk ⟨⟨row, hmem, hid⟩, hhub, hsettled⟩
  | write id data close =>
    cases close with
    | true => exact .writes h hk
    | false => exact .writes h hk
  | closeConn id =>
    simp only [act]
    split
    · rename_i hconn
      exact .hasNoTunnel h hk hconn
    · rename_i n hconn
      split
      · exact .shuts h hk hconn
      · rename_i hup
        exact .findsClosed h hk hconn hup
  | ask orgId id byUserId =>
    cases hlive : q.store.hub id with
    | none =>
      have hnext : Sessions.next toISOString q.store.toStore ok (.ask orgId id byUserId) =
          some (.readTerminate orgId id byUserId true) := by
        rw [Sessions.next, hlive]
      have heffect : effect q.store.toStore (.ask orgId id byUserId) = q.store.toStore := by
        rw [effect, if_neg]
        rintro ⟨live, hmem, -⟩
        rw [hlive] at hmem
        cases hmem
      simp only [act, heffect, hnext]
      exact .continues h hk (fun heq ↦ by cases heq) (fun _ ↦ rfl) fun hid ↦ hid.elim
    | some live =>
      by_cases horg : live.orgId = orgId
      · have hnext : Sessions.next toISOString q.store.toStore ok (.ask orgId id byUserId) =
            some (Store.afterTake live id "terminated" [("terminatedBy", byUserId)]) := by
          rw [Sessions.next, hlive]
          exact if_pos horg
        have heffect : effect q.store.toStore (.ask orgId id byUserId) = q.store.leaveHub id := by
          rw [effect, if_pos]
          exact ⟨live, hlive, horg⟩
        simp only [act, heffect, hnext]
        exact .leaves h hk rfl (fun heq ↦ by cases heq) (fun hid ↦ .inr (hid.resolve_left not_false))
          howes.2 hlive rfl rfl rfl rfl rfl (.of_eq rfl) fun _ hup ↦ hup
      · have hnext : Sessions.next toISOString q.store.toStore ok (.ask orgId id byUserId) =
            none := by
          rw [Sessions.next, hlive]
          exact if_neg horg
        have heffect : effect q.store.toStore (.ask orgId id byUserId) = q.store.toStore := by
          rw [effect, if_neg]
          rintro ⟨live', hmem, horg'⟩
          obtain rfl := Option.some.inj (hlive.symm.trans hmem)
          exact horg horg'
        simp only [act, heffect, hnext]
        exact .done h hk (fun heq ↦ by cases heq) not_false
  | take id reason extra =>
    cases hlive : q.store.hub id with
    | none =>
      have hnext : Sessions.next toISOString q.store.toStore ok (.take id reason extra) =
          none := by
        rw [Sessions.next, hlive]
        rfl
      have heffect : effect q.store.toStore (.take id reason extra) = q.store.toStore := by
        have hupdate : Function.update q.store.hub id none = q.store.hub := by
          rw [← hlive]
          exact Function.update_eq_self ..
        rw [effect, Store.leaveHub, hupdate]
      simp only [act, heffect, hnext]
      refine .done h hk (fun heq ↦ by cases heq) ?_
      rintro id' ⟨rfl, hhub⟩
      exact hhub hlive
    | some live =>
      have hnext : Sessions.next toISOString q.store.toStore ok (.take id reason extra) =
          some (Store.afterTake live id reason extra) := by
        rw [Sessions.next, hlive]
        rfl
      simp only [act, effect, hnext]
      exact .leaves h hk rfl (fun heq ↦ by cases heq) (fun hid ↦ hid.imp_left fun hid ↦ hid.1.symm)
        howes.2 hlive rfl rfl rfl rfl rfl (.of_eq rfl) fun _ hup ↦ hup
  | upload id reason extra recordingKey =>
    cases ok with
    | true =>
      exact .continues h hk (fun heq ↦ by cases heq) (fun hf ↦ hf.keepsOver h hk howes.1)
        fun hid ↦ hid
    | false =>
      exact .continues h hk (fun heq ↦ by cases heq) (fun hf ↦ hf.keepsOver h hk howes.1)
        fun hid ↦ hid
  | saveKey id reason extra recordingKey => exact .saves h hk
  | lookup n =>
    cases hsession : q.store.rdpSessionByConn n with
    | some id =>
      have hnext : Sessions.next toISOString q.store.toStore ok (.lookup n) =
          some (.readEnd id .ended none) := by
        rw [Sessions.next, hsession]
        rfl
      simp only [act, hnext]
      exact .finds h hk hsession
    | none =>
      have hnext : Sessions.next toISOString q.store.toStore ok (.lookup n) = none := by
        rw [Sessions.next, hsession]
        rfl
      have heffect : effect q.store.toStore (.lookup n) = q.store.toStore := by
        rw [effect, hsession]
      simp only [act, heffect, hnext]
      refine .done h hk (fun heq ↦ by cases heq) fun hid ↦ ?_
      rw [closes, hsession] at hid
      cases hid

end

end

end Shellius.Sessions.Listing
