import Shellius.Sessions.Shutting

/-!
# Every run of the list

What is asked of the steps, and that the list is true as long as it is given; and a run of each
kind in which it is not.
-/

namespace Shellius.Sessions.Listing

open Lib Terminal

section

variable {c : Columns} {toISOString : Millis → String} {q : Pool Process Call} {p p' : Process}
  {i j : Nat} {k : Call} {k' : Option Call} {l : Link} {id : Id} {ok : Bool}

/-! ## Every run -/

variable (c) in
/-- When a call takes its evidence for what it is: no connection is closed while it is being
opened, but for a client whose shell is waited for; nobody closes the row of a connection that is
up and being opened, and the passes and whoever terminates a session close no row of a session
that is live, but for the tunnel that is closed with it. -/
def Call.heeds (q : Pool Process Call) : Call → Prop
  | .clientClose client => q.store.links (.ssh client) = .up → ∀ j k,
      q.calls j = some k → k.opens = some (.ssh client) → k.awaitsShell = true
  | .tunnelClose n => ¬ Coming q (.rdp n)
  | .endRdp id _ => ∀ l, c.key l = id → ¬ Coming q l
  | .markStaleSessions => ∀ id ∈ q.store.staleIds, ∀ l, c.key l = id →
      ¬ Coming q l ∧ ¬ Live c q.store l
  | .sweep (id :: _) .restart => q.store.hub id = none → ∀ l, c.key l = id → ¬ Coming q l
  | .closing (.readTerminate orgId id _ _) _ _ => (q.store.terminable orgId id).isSome = true →
      q.store.hub id = none ∧ ∀ l, c.key l = id → ¬ Coming q l
  | _ => True

theorem progress_act (h : Inv c q) (hk : q.calls i = some k) (hheeds : k.heeds c q) :
    Progress c q i k (act c toISOString q.store ok k).1 (act c toISOString q.store ok k).2 := by
  cases k with
  | connect client start =>
    simp only [act]
    split
    · rename_i hunused
      refine .opened h rfl hunused (fun _ _ _ heq ↦ by cases heq) not_false fun hk' ↦ ?_
      obtain rfl := Option.some.inj hk'
      exact ⟨rfl, rfl, trivial⟩
    · exact .returns rfl (fun heq ↦ by cases heq) not_false
  | openTunnel n start =>
    simp only [act]
    split
    · rename_i hunused
      refine .opened h rfl hunused (fun _ _ _ heq ↦ by cases heq) not_false fun hk' ↦ ?_
      obtain ⟨start', -, rfl⟩ := Option.map_eq_some_iff.mp hk'
      exact ⟨rfl, rfl, trivial⟩
    · exact .returns rfl (fun heq ↦ by cases heq) not_false
  | sshCreate client start =>
    simp only [act]
    split
    · rename_i p' hp
      obtain ⟨-, hp⟩ := Option.ite_none_right_eq_some.mp hp
      exact .creates h hk rfl rfl hp rfl rfl trivial
    · exact .fails h hk rfl rfl (.inr rfl)
  | sshCreated client start =>
    simp only [act]
    split
    · exact .goesOn h hk rfl rfl rfl rfl (fun hshell ↦ by cases hshell) trivial
    · rename_i hup
      exact absurd (h.up hk rfl rfl) hup
  | sshShell client start =>
    simp only [act]
    split
    · rename_i hup
      exact .goesOn h hk rfl rfl rfl rfl (fun _ ↦ hup.2) trivial
    · exact .givesUp h hk
  | sshRecord client start => exact .registers h hk
  | rdpCreate n start =>
    simp only [act]
    split
    · rename_i p' hp
      obtain ⟨-, hp⟩ := Option.ite_none_right_eq_some.mp hp
      exact .creates h hk rfl rfl hp rfl rfl trivial
    · exact .fails h hk rfl rfl (.inl rfl)
  | rdpCreated n => exact .knows h hk
  | clientClose client =>
    simp only [act]
    split
    · rename_i hup
      have hopening : ∀ {j k'}, q.calls j = some k' → k'.opens = some (.ssh client) →
          k'.awaitsShell = true := fun hj hl ↦ hheeds hup _ _ hj hl
      split
      · rename_i live hlive
        have hhub : Function.update q.store.hub (c.key (.ssh client)) none
            (c.key (.ssh client)) = none := Function.update_self ..
        refine .leaves h hk rfl (fun heq ↦ by cases heq) (fun hid ↦ hid.elim)
          (fun id hid ↦ absurd hid List.not_mem_nil) hlive rfl rfl rfl rfl rfl
          (.closed rfl (.inr hopening) (fun _ ↦ hhub) (by rw [hup]; decide))
          fun hkey hup' ↦ (setLink_of_ne ?_).trans hup'
        rintro rfl
        exact hkey rfl
      · rename_i hhub
        exact .drops h hup hhub hopening
    · exact .returns rfl (fun heq ↦ by cases heq) not_false
  | tunnelClose n =>
    simp only [act]
    split
    · rename_i hup
      exact .closesTunnel h hup fun hopening ↦ hheeds ⟨hopening, hup⟩
    · exact .returns rfl (fun heq ↦ by cases heq) not_false
  | endRdp id reason =>
    simp only [act]
    split
    · rename_i hrow
      obtain ⟨hfind, hrdp⟩ := hrow
      obtain ⟨row, hrow⟩ := Option.isSome_iff_exists.mp hfind
      obtain ⟨hmem, hid⟩ := Keyed.find_eq_some.mp hrow
      refine .endsRdp h hk ⟨row, hmem, hid⟩ (fun client hkey ↦ ?_) hheeds
      rw [c.link_eq_some.mpr hkey] at hrdp
      cases hrdp
    · exact .returns rfl (fun heq ↦ by cases heq) not_false
  | markStaleSessions =>
    refine .resumes h hk rfl (fun id hid ↦ ?_) (fun heq ↦ by cases heq) fun hid ↦ hid.elim
    obtain ⟨row, hrow, hrid, -⟩ := mem_staleIds.mp hid
    exact h.over ⟨row, hrow, hrid⟩ (hheeds id hid)
  | reconcileOrphanedSessions =>
    refine .resumes h hk rfl (fun id hid ↦ ?_) (fun heq ↦ by cases heq) fun hid hactive ↦
      .inr (mem_orphanIds.mpr ⟨hactive, hid⟩)
    obtain ⟨hactive, hssh⟩ := mem_orphanIds.mp hid
    exact ⟨hasRow_of_isActive hactive, hssh⟩
  | sweep ids pass =>
    have howes := h.owes hk
    cases ids with
    | nil => exact .returns rfl (fun heq ↦ by cases heq) List.not_mem_nil
    | cons id ids =>
      have hrest : OwesPass c q ids pass := by
        cases pass with
        | stale => exact fun id' hid ↦ howes id' (List.mem_cons_of_mem _ hid)
        | restart => exact fun id' hid ↦ howes id' (List.mem_cons_of_mem _ hid)
      simp only [act]
      split
      · rename_i hskip
        refine .resumes h hk rfl hrest (fun heq ↦ by cases heq) fun hid _ ↦ ?_
        rcases List.mem_cons.mp hid with rfl | hid
        · exact .inl (Option.isSome_iff_ne_none.mp hskip.2)
        · exact .inr hid
      · rename_i hskip
        have hover : Over c q id := by
          cases pass with
          | stale => exact howes id List.mem_cons_self
          | restart =>
            obtain ⟨hrow, client, rfl⟩ := howes id List.mem_cons_self
            have hhub : q.store.hub (c.key (.ssh client)) = none := by
              by_contra hhub
              exact hskip ⟨rfl, Option.isSome_iff_ne_none.mpr hhub⟩
            refine h.over hrow fun l hl ↦ ⟨hheeds hhub l hl, fun hlive ↦ ?_⟩
            obtain rfl := c.key_inj hl
            exact absurd hhub (Option.isSome_iff_ne_none.mp (hlive.2 client rfl))
        refine .quiet rfl (fun {k''} hk' ↦ ?_) (fun heq ↦ by cases heq) fun {id'} hid _ ↦
          .inr ⟨_, rfl, ?_⟩
        · obtain rfl := Option.some.inj hk'
          exact ⟨rfl, fun hf ↦ ⟨hf.keepsOver h hk hover, hf.owesPass h hk hrest⟩⟩
        · exact (List.mem_cons.mp hid).imp_left Eq.symm
  | closing s ids pass =>
    refine progress_closing h hk fun orgId id byUserId close heq hrow ↦ ?_
    subst heq
    exact hheeds hrow

variable (c) in
/-- What is asked of a step: a call heeds, and no row of a tunnel is active when the backend is
restarted. -/
def Heedful (q : Pool Process Call) : Happening → Pool Process Call → Prop
  | .act i _, _ => ∀ k, q.calls i = some k → k.heeds c q
  | .restart, _ => ∀ row ∈ q.store.sessions, row.status = .active →
      ∃ client, c.key (.ssh client) = row.id
  | _, _ => True

theorem inv_started : Inv c started := by
  have hrow : ∀ {id}, ¬ HasRow started.store.toStore id := by
    rintro id ⟨row, hrow, -⟩
    exact absurd hrow List.not_mem_nil
  have hcall : ∀ {i k}, started.calls i ≠ some k := by
    intro i k hi
    cases hi
  exact
    { rows row hrow := absurd hrow List.not_mem_nil
      once hi := absurd hi hcall
      used hi := absurd hi hcall
      up hi := absurd hi hcall
      fresh hi := absurd hi hcall
      opened hi := absurd hi hcall
      hub hid := absurd rfl hid
      known hid := (by cases hid)
      connected hid := (by cases hid)
      wired hid := absurd rfl hid
      listening hclient := (by cases hclient)
      owes hi := absurd hi hcall
      mapped hid := absurd hid hrow
      tunnel hid := absurd hid hrow
      listed hid := absurd (hasRow_of_isActive hid) hrow }

/-- A call that has just begun, or some time that has passed, changes nothing. -/
theorem Inv.of_same {q' : Pool Process Call} (h : Inv c q)
    (hsessions : q'.store.sessions = q.store.sessions) (hhub : q'.store.hub = q.store.hub)
    (hsession : q'.store.rdpSessionByConn = q.store.rdpSessionByConn)
    (hconn : q'.store.rdpConnBySession = q.store.rdpConnBySession)
    (hlinks : q'.store.links = q.store.links) (hlistening : q'.store.listening = q.store.listening)
    (hold : ∀ {j k}, q.calls j = some k → q'.calls j = some k)
    (hnew : ∀ {j k}, q'.calls j = some k → q.calls j = some k ∨
      k.opens = none ∧ k.owes c q') : Inv c q' := by
  have hopens : ∀ {j k l}, q'.calls j = some k → k.opens = some l → q.calls j = some k := by
    intro j k l hj hl
    rcases hnew hj with hj | ⟨hnone, -⟩
    · exact hj
    · rw [hnone] at hl
      cases hl
  have hopening : ∀ {l}, Opening q' l ↔ Opening q l := by
    intro l
    constructor
    · rintro ⟨j, k, hj, hl⟩
      exact ⟨j, k, hopens hj hl, hl⟩
    · rintro ⟨j, k, hj, hl⟩
      exact ⟨j, k, hold hj, hl⟩
  have hcoming : ∀ {l}, Coming q' l ↔ Coming q l := by
    intro l
    rw [Coming, Coming, hopening, hlinks]
  have hlive : ∀ {l}, Live c q'.store l ↔ Live c q.store l := live_congr hlinks hhub
  have hrow : ∀ {id}, HasRow q'.store.toStore id ↔ HasRow q.store.toStore id :=
    hasRow_congr hsessions
  have hactive : ∀ {id}, q'.store.IsActive id ↔ q.store.IsActive id := isActive_congr hsessions
  have hpast : ∀ {id}, Past c q id → Past c q' id := fun hid ↦
    ⟨hrow.mpr hid.row, by rw [hhub, hid.hub], fun l hl hc ↦ hid.settled l hl (hcoming.mp hc)⟩
  have hover : ∀ {id}, Over c q id → Over c q' id := fun hid ↦
    ⟨hpast hid.toPast, fun l hl hlive' ↦ hid.dead l hl (hlive.mp hlive')⟩
  have hpass : ∀ {ids pass}, OwesPass c q ids pass → OwesPass c q' ids pass := by
    intro ids pass howes
    cases pass with
    | stale => exact fun id hid ↦ hover (howes id hid)
    | restart => exact fun id hid ↦ (howes id hid).imp_left hrow.mpr
  have howes : ∀ {k : Call}, k.owes c q → k.owes c q' := by
    intro k howes
    cases k with
    | closing s ids pass =>
      refine ⟨?_, hpass howes.2⟩
      cases s with
      | readEnd | upload | saveKey => exact hover howes.1
      | write id data close =>
        cases close with
        | false => exact hover howes.1
        | true => exact hpast howes.1
      | closeConn id => exact ⟨hpast howes.1.1, fun hid ↦ howes.1.2 (hactive.mp hid)⟩
      | lookup n => exact (congrFun hlinks _).trans howes.1
      | readTerminate => exact howes.1
      | ask | take => trivial
    | sweep ids pass => exact hpass howes
    | _ => trivial
  have hbound : ∀ {k : Call} {id}, k.bound c q.store id → k.bound c q'.store id := by
    intro k id hbound
    cases k with
    | closing s ids pass =>
      refine hbound.imp_left fun hcloses ↦ ?_
      cases s with
      | readEnd | upload | saveKey | write => exact hcloses
      | take => exact ⟨hcloses.1, by rw [hhub]; exact hcloses.2⟩
      | lookup n => exact (congrFun hsession n).trans hcloses
      | readTerminate | closeConn | ask => cases hcloses
    | sweep | reconcileOrphanedSessions => exact hbound
    | _ => cases hbound
  exact
    { rows row hmem := by
        rw [hlinks]
        exact h.rows row (hsessions ▸ hmem)
      once hi hj hl hl' := h.once (hopens hi hl) (hopens hj hl') hl hl'
      used hi hl := by
        rw [hlinks]
        exact h.used (hopens hi hl) hl
      up hi hl hshell := by
        rw [hlinks]
        exact h.up (hopens hi hl) hl hshell
      fresh hi hl hcreates hid := h.fresh (hopens hi hl) hl hcreates (hrow.mp hid)
      opened hi hl hcreates := by
        rw [hrow, hactive, hlinks]
        exact h.opened (hopens hi hl) hl hcreates
      hub {id} hid := by
        rw [hhub] at hid
        simp only [hactive, hopening]
        exact h.hub hid
      known {n id} hid := by
        rw [hsession] at hid
        rw [hrow, hopening]
        exact h.known hid
      connected {n id} hid := by
        rw [hconn] at hid
        rw [hrow, hopening]
        exact h.connected hid
      wired hid := by
        rw [hhub] at hid
        rw [hlinks]
        exact h.wired hid
      listening hclient := by
        rw [hlistening] at hclient
        exact hrow.mpr (h.listening hclient)
      owes hi := by
        rcases hnew hi with hi | ⟨-, howes'⟩
        · exact howes (h.owes hi)
        · exact howes'
      mapped hid hup := by
        rw [hlinks] at hup
        rw [hopening, hsession, hconn]
        exact h.mapped (hrow.mp hid) hup
      tunnel hid hup := by
        rw [hlinks] at hup
        rcases h.tunnel (hrow.mp hid) hup with hid' | ⟨j, ids, pass, hj⟩
        · exact .inl (hactive.mpr hid')
        · exact .inr ⟨j, ids, pass, hold hj⟩
      listed hid := by
        rw [hlive, hopening]
        rcases h.listed (hactive.mp hid) with hl | hl | ⟨j, k, hj, hk⟩
        · exact .inl hl
        · exact .inr (.inl hl)
        · exact .inr (.inr ⟨j, k, hold hj, hbound hk⟩) }

/-- A restart leaves nothing live, and the pass that ends the terminals. -/
theorem Inv.restart (h : Inv c q) (hheedful : ∀ row ∈ q.store.sessions, row.status = .active →
    ∃ client, c.key (.ssh client) = row.id) :
    Inv c ⟨q.store.restart, Function.update (fun _ ↦ none) 0 (some .reconcileOrphanedSessions)⟩ := by
  have hcall : ∀ {i k}, Function.update (fun _ ↦ none) 0 (some Call.reconcileOrphanedSessions) i =
      some k → k = .reconcileOrphanedSessions := by
    intro i k hi
    by_cases hi0 : i = 0
    · subst hi0
      exact (Option.some.inj hi).symm
    · rw [Function.update_of_ne hi0] at hi
      cases hi
  have hopens : ∀ {i k l}, Function.update (fun _ ↦ none) 0
      (some Call.reconcileOrphanedSessions) i = some k → k.opens ≠ some l := by
    intro i k l hi
    rw [hcall hi]
    exact fun hl ↦ (by cases hl)
  have hup : ∀ {l}, q.store.restart.links l ≠ .up := by
    intro l
    show (if q.store.links l = .up then LinkState.down else q.store.links l) ≠ .up
    split
    · decide
    · assumption
  exact
    { rows row hrow := by
        obtain ⟨l, hl, hused⟩ := h.rows row hrow
        refine ⟨l, hl, ?_⟩
        show (if q.store.links l = .up then LinkState.down else q.store.links l) ≠ .unused
        split
        · decide
        · exact hused
      once hi _ hl := absurd hl (hopens hi)
      used hi hl := absurd hl (hopens hi)
      up hi hl := absurd hl (hopens hi)
      fresh hi hl := absurd hl (hopens hi)
      opened hi hl := absurd hl (hopens hi)
      hub hid := absurd rfl hid
      known hid := (by cases hid)
      connected hid := (by cases hid)
      wired hid := absurd rfl hid
      listening hclient := (by cases hclient)
      owes hi := by
        rw [hcall hi]
        trivial
      mapped _ hl := absurd hl hup
      tunnel _ hl := absurd hl hup
      listed hid := by
        obtain ⟨row, hrow, hrid, hstatus⟩ := isActive_iff.mp hid
        obtain ⟨client, hkey⟩ := hheedful row hrow hstatus
        exact .inr (.inr ⟨0, _, rfl, client, hkey.trans hrid⟩) }

theorem inv_step {q' : Pool Process Call} {e : Happening} (h : Inv c q)
    (hs : step c toISOString q e = some q') (hheedful : Heedful c q e q') : Inv c q' := by
  cases e with
  | spawn i op =>
    obtain ⟨hfree, rfl⟩ := Program.step_spawn hs
    refine h.of_same rfl rfl rfl rfl rfl rfl (fun {j k} hj ↦ ?_) fun {j k} hj ↦ ?_
    · refine (Function.update_of_ne ?_ ..).trans hj
      rintro rfl
      cases hfree.symm.trans hj
    · rcases calls_after hj with ⟨-, hk⟩ | ⟨-, hj⟩
      · obtain rfl := Option.some.inj hk
        refine .inr ?_
        cases op with
        | terminateSession | hubEnd =>
          exact ⟨rfl, trivial, fun id hid ↦ absurd hid List.not_mem_nil⟩
        | _ => exact ⟨rfl, trivial⟩
      · exact .inl hj
  | act i ok =>
    obtain ⟨k, r, hk, hact, rfl⟩ := Program.step_act hs
    obtain rfl := Option.some.inj hact
    exact (progress_act h hk (hheedful k hk)).inv h hk
  | time now =>
    obtain ⟨p', hp, rfl⟩ := Program.step_env hs
    obtain ⟨-, hp⟩ := Option.ite_none_right_eq_some.mp hp
    obtain rfl := Option.some.inj hp
    exact h.of_same rfl rfl rfl rfl rfl rfl id .inl
  | restart =>
    obtain rfl := Option.some.inj hs
    exact h.restart hheedful

variable (c toISOString) in
/-- Whatever is opened, closed, terminated and restarted, a row is active exactly when its session
is live, in every state in which nothing is on its way. -/
theorem list_truthful (es : List Happening) (q : Pool Process Call)
    (hr : Run (step c toISOString) (Heedful c) started es q) :
    Run (step c toISOString) (fun _ _ q' ↦ Truthful c q') started es q ∧ Truthful c q := by
  refine ⟨hr.mono_of_invariant (I := Inv c) inv_started fun t e u ht hs hheedful ↦ ?_,
    (hr.invariant (I := Inv c) inv_started fun t e u ht hs hheedful ↦
      inv_step ht hs hheedful).truthful⟩
  have hu := inv_step ht hs hheedful
  exact ⟨hu, hu.truthful⟩

end

/-! ## A tunnel, and a terminal that is kept for a day -/

/-- The row of a connection has as many letters as there were connections before it. -/
def plainColumns : Columns where
  key
    | .ssh client => String.ofList ('s' :: List.replicate client 'x')
    | .rdp n => String.ofList ('r' :: List.replicate n 'x')
  link id :=
    match id.toList with
    | 's' :: rest => if rest = List.replicate rest.length 'x' then some (.ssh rest.length) else none
    | 'r' :: rest => if rest = List.replicate rest.length 'x' then some (.rdp rest.length) else none
    | _ => none
  link_eq_some := by
    intro id l
    constructor
    · intro h
      split at h
      · rename_i rest hid
        obtain ⟨hrest, h⟩ := Option.ite_none_right_eq_some.mp h
        obtain rfl := Option.some.inj h
        show String.ofList ('s' :: List.replicate rest.length 'x') = id
        rw [← hrest, ← hid, String.ofList_toList]
      · rename_i rest hid
        obtain ⟨hrest, h⟩ := Option.ite_none_right_eq_some.mp h
        obtain rfl := Option.some.inj h
        show String.ofList ('r' :: List.replicate rest.length 'x') = id
        rw [← hrest, ← hid, String.ofList_toList]
      · cases h
    · rintro rfl
      cases l with
      | ssh client => simp
      | rdp n => simp

def plainISOString (_ : Millis) : String := ""

/-- Somebody opens a tunnel and closes it while the database is creating the row. -/
def closedEarly : List Happening :=
  [.spawn 0 (.openTunnel 0 (some { orgId := "org" })), .act 0 true, .act 0 true,
    .spawn 1 (.tunnelClose 0), .act 1 true, .act 1 true, .act 0 true]

def keptOpen : List Happening :=
  [.spawn 0 (.connect 0 { orgId := "org" }), .act 0 true, .act 0 true, .act 0 true, .act 0 true,
    .act 0 true, .time (25 * 60 * 60 * 1000), .spawn 1 .markStaleSessions, .act 1 true,
    .act 1 true, .act 1 true, .act 1 true]

def openedAndClosed : List Happening :=
  [.spawn 0 (.connect 0 { orgId := "org" }), .act 0 true, .act 0 true, .act 0 true, .act 0 true,
    .act 0 true, .spawn 0 (.hubEnd (plainColumns.key (.ssh 0)) "closed" []), .act 0 true,
    .act 0 true, .act 0 true]

def asksNothing (q : Pool Process Call) : Happening → Bool
  | .act i _ =>
    match q.calls i with
    | some (.connect ..) | some (.sshCreate ..) | some (.sshCreated ..) | some (.sshShell ..)
    | some (.sshRecord ..) | some (.closing (.take ..) ..) | some (.closing (.readEnd ..) ..)
    | some (.closing (.write ..) ..) => true
    | _ => false
  | .restart => false
  | _ => true

def closedPool : Pool Process Call :=
  (exec (step plainColumns plainISOString) started openedAndClosed).getD started

theorem openedAndClosed_truthful :
    Run (step plainColumns plainISOString) (fun _ _ q' ↦ Truthful plainColumns q') started
      openedAndClosed closedPool ∧
    closedPool.store.sessions.rows.map Session.status = [.over .ended] ∧
    Truthful plainColumns closedPool := by
  have hrun : execIf (step plainColumns plainISOString) asksNothing started openedAndClosed =
      some closedPool := rfl
  have hheedful : Run (step plainColumns plainISOString) (Heedful plainColumns) started
      openedAndClosed closedPool := by
    refine (run_of_execIf hrun).mono fun q e _ hasks ↦ ?_
    cases e with
    | act i ok =>
      intro k hk
      rw [asksNothing, hk] at hasks
      cases k with
      | closing s ids pass =>
        cases s with
        | readTerminate => cases hasks
        | _ => trivial
      | clientClose | tunnelClose | endRdp | markStaleSessions | sweep => cases hasks
      | _ => trivial
    | restart => cases hasks
    | spawn | time => trivial
  obtain ⟨hall, htruthful⟩ :=
    list_truthful plainColumns plainISOString openedAndClosed closedPool hheedful
  exact ⟨hall, rfl, htruthful⟩

/-- The row of the tunnel stays active, and the row of the terminal is closed. -/
theorem listed_wrongly :
    (∃ q, Run (step plainColumns plainISOString) free started closedEarly q ∧
      ¬ Truthful plainColumns q ∧
      ∃ row ∈ q.store.sessions, row.status = .active ∧ q.store.links (.rdp 0) = .down) ∧
    ∃ q, Run (step plainColumns plainISOString) free started keptOpen q ∧
      ¬ Truthful plainColumns q ∧
      ∃ row ∈ q.store.sessions, row.status = .over .ended ∧
        ∃ l, plainColumns.key l = row.id ∧ Live plainColumns q.store l := by
  constructor
  · have hrun : exec (step plainColumns plainISOString) started closedEarly = some _ := rfl
    refine ⟨_, run_of_exec hrun, fun htruthful ↦ ?_, _, List.mem_singleton_self _, rfl, rfl⟩
    have hidle : ∀ i, (exec (step plainColumns plainISOString) started closedEarly).all
        (fun q ↦ (q.calls i).isNone) = true := by
      rintro (_ | _ | i) <;> rfl
    obtain ⟨l, hl, hup, -⟩ := (htruthful (fun i ↦ Option.isNone_iff_eq_none.mp (hidle i)) _
      (List.mem_singleton_self _)).mp rfl
    have hlink : l = .rdp 0 := plainColumns.key_inj hl
    subst hlink
    cases hup
  · have hrun : exec (step plainColumns plainISOString) started keptOpen = some _ := rfl
    refine ⟨_, run_of_exec hrun, fun htruthful ↦ ?_, _, List.mem_singleton_self _, rfl, .ssh 0, rfl,
      rfl, fun client hclient ↦ rfl⟩
    have hidle : ∀ i, (exec (step plainColumns plainISOString) started keptOpen).all
        (fun q ↦ (q.calls i).isNone) = true := by
      rintro (_ | _ | i) <;> rfl
    have hactive := (htruthful (fun i ↦ Option.isNone_iff_eq_none.mp (hidle i)) _
      (List.mem_singleton_self _)).mpr ⟨.ssh 0, rfl, rfl, fun client hclient ↦ rfl⟩
    cases hactive

end Shellius.Sessions.Listing
