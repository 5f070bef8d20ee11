import Shellius.Lib.Pool
import Shellius.Schema
import Shellius.Text

/-!
# Remote desktops in the workspace

`lib/rdpPanes.js`, and the tabs of `context/TerminalWorkspaceContext.jsx`.  Windows evicts a session
when its account signs in again, so that no two tabs may be connected to one server unless their
accounts are known and differ.  `openRdpTab` asks `findRdpConflict` first; `openTab`, `reconnectTab`
and `setTabState` do not, and `convertRequestTabToTerminal` asks in vain where it is told no server.

What a tab shows (labels, hosts, errors, reasons) is left out, as is its place in a split.
-/

namespace Shellius.Workspace.Rdp

open Lib

inductive Kind
  | terminal | request
deriving DecidableEq

structure Tab where
  id : Id
  kind : Kind := .terminal
  isRdp : Bool
  state : String
  sessionId : Option Id := none
  serverId : Option Id := none
  accessRequestId : Option Id := none
  username : Option String := none
  connect : Option Id := none
  autoConnect : Bool := true
deriving DecidableEq

/-- `LIVE_TAB_STATES` -/
def Tab.isLive (t : Tab) : Bool := t.state ∈ ["connecting", "live", "reconnecting"]

section

variable (lower : String → String)

def normalizeAccount (username : Option String) : Option String :=
  (username.bind fun u ↦ truthy (some (trim u))).map lower

/-- The accounts are known, and differ. -/
def otherAccount (u v : Option String) : Bool :=
  (normalizeAccount lower u).any fun a ↦ (normalizeAccount lower v).any (a ≠ ·)

def findRdpConflict (tabs : List Tab) (serverId : Option Id) (username : Option String)
    (excludeTabId : Option Id) : Option Tab :=
  match truthy serverId with
  | none => none
  | some server => tabs.find? fun t ↦
    t.isRdp && excludeTabId ≠ some t.id && t.isLive && t.serverId = some server &&
      !otherAccount lower t.username username

/-! ## What happens to the tabs -/

def rewrite (tabs : List Tab) (id : Id) (f : Tab → Tab) : List Tab :=
  tabs.map fun t ↦ if t.id = id then f t else t

structure Meta where
  isRdp : Bool := false
  serverId : Option Id := none
  username : Option String := none
  sessionId : Option Id := none
  accessRequestId : Option Id := none
  autoConnect : Bool := true

/-- The tab of `openTab`. -/
def newTab (id : Id) (connect : Option Id) (m : Meta) : Tab where
  id := id
  isRdp := m.isRdp
  state := "connecting"
  sessionId := m.sessionId
  serverId := m.serverId
  accessRequestId := m.accessRequestId
  username := m.username
  connect := connect
  autoConnect := m.autoConnect

def convertRequestTab (connect : Option Id) (m : Meta) (t : Tab) : Tab :=
  { t with
    kind := .terminal
    isRdp := m.isRdp
    connect
    sessionId := none
    serverId := m.serverId.or t.serverId
    accessRequestId := if m.isRdp then connect else none
    username := m.username.or t.username
    autoConnect := true
    state := "connecting" }

def reconnect (connect : Option Id) (username : Option String) (t : Tab) : Tab :=
  { t with
    kind := .terminal
    accessRequestId := if t.isRdp then connect.or t.accessRequestId else none
    autoConnect := true
    connect
    sessionId := none
    state := "connecting"
    username := (truthy username).or t.username }

def convertToRequest (accessRequestId : Id) (t : Tab) : Tab :=
  { t with
    kind := .request
    accessRequestId := some accessRequestId
    connect := none
    sessionId := none
    state := "pending" }

/-- A stored tab, as `buildInitialState` restores it, if it does: a remote desktop is never
connected again by itself. -/
def restore (t : Tab) : Option Tab :=
  if (truthy t.sessionId).isNone && (truthy t.accessRequestId).isNone then none
  else if t.isRdp then
    some { id := t.id, isRdp := true, state := "ended", serverId := truthy t.serverId,
           accessRequestId := t.accessRequestId, username := t.username,
           connect := t.accessRequestId, autoConnect := false }
  else if t.kind = .request then
    some { id := t.id, kind := .request, isRdp := false, state := "pending",
           accessRequestId := t.accessRequestId, username := t.username }
  else if (truthy t.sessionId).isNone then none
  else
    some { id := t.id, isRdp := false, state := "connecting", sessionId := t.sessionId,
           username := t.username }

/-- What is done with the tabs; the identifiers of new tabs come from `uuid`. -/
inductive Event
  | openTab (id : Id) (connect : Option Id) (m : Meta)
  | openRdpTab (id requestId : Id) (serverId : Option Id) (username : Option String) (m : Meta)
  | openRequestTab (id accessRequestId : Id) (username : Option String)
  | convertRequestTabToTerminal (id : Id) (connect : Option Id) (m : Meta)
  | reconnectTab (id : Id) (connect : Option Id) (username : Option String)
  | convertTabToRequest (id : Id) (accessRequestId : Id)
  | setTabState (id : Id) (state : String)
  | closeTab (id : Id)
  | reload (stored : List Tab)

def addTab (tabs : List Tab) (t : Tab) : Option (List Tab) :=
  if t.id ∈ tabs.map (·.id) then none else some (tabs ++ [t])

def step (tabs : List Tab) : Event → Option (List Tab)
  | .openTab id connect m => addTab tabs (newTab id connect m)
  | .openRdpTab id requestId serverId username m =>
    match findRdpConflict lower tabs serverId username none with
    | some _ => some tabs
    | none => addTab tabs (newTab id (some requestId) { m with
        isRdp := true, serverId := truthy serverId, accessRequestId := some requestId, username })
  | .openRequestTab id accessRequestId username =>
    if tabs.any fun t ↦ t.kind = .request && t.accessRequestId = some accessRequestId then some tabs
    else addTab tabs { id, kind := .request, isRdp := false, state := "pending",
                       accessRequestId := some accessRequestId, username }
  | .convertRequestTabToTerminal id connect m =>
    if m.isRdp && (findRdpConflict lower tabs m.serverId m.username (some id)).isSome then some tabs
    else some (rewrite tabs id (convertRequestTab connect m))
  | .reconnectTab id connect username => some (rewrite tabs id (reconnect connect username))
  | .convertTabToRequest id accessRequestId =>
    some (rewrite tabs id (convertToRequest accessRequestId))
  | .setTabState id state => some (rewrite tabs id ({ · with state }))
  | .closeTab id => some (tabs.filter (·.id ≠ id))
  | .reload stored => if (stored.map (·.id)).Nodup then some (stored.filterMap restore) else none

/-! ## One logon for each account -/

/-- Both tabs are connected to one server, and perhaps as one account. -/
def clash (a b : Tab) : Bool :=
  a.isRdp && b.isRdp && a.isLive && b.isLive && (truthy a.serverId).isSome &&
    a.serverId = b.serverId && !otherAccount lower a.username b.username

/-- No two tabs clash. -/
def Apart (tabs : List Tab) : Prop := tabs.Pairwise fun a b ↦ clash lower a b = false

/-- The tab, as it is to be, is found to conflict with no other. -/
def checked (tabs : List Tab) (t : Tab) : Bool :=
  !t.isRdp || !t.isLive ||
    (findRdpConflict lower tabs t.serverId t.username (some t.id)).isNone

/-- The conflict is asked for where the code does not ask. -/
def asks (tabs : List Tab) : Event → Bool
  | .openTab id connect m => checked lower tabs (newTab id connect m)
  | .convertRequestTabToTerminal id connect m =>
    m.serverId.isSome ||
      tabs.all fun t ↦ t.id ≠ id || checked lower tabs (convertRequestTab connect m t)
  | .reconnectTab id connect username =>
    tabs.all fun t ↦ t.id ≠ id || checked lower tabs (reconnect connect username t)
  | .setTabState id state =>
    tabs.all fun t ↦ t.id ≠ id || checked lower tabs { t with state }
  | .openRdpTab .. | .openRequestTab .. | .convertTabToRequest .. | .closeTab _ | .reload _ => true

def Asks (tabs : List Tab) (e : Event) (_ : List Tab) : Prop := asks lower tabs e = true

end

section

variable {lower : String → String} {tabs tabs' : List Tab} {e : Event} {a b t : Tab} {id : Id}
  {serverId : Option Id} {u v : Option String} {excluded : Option Id} {f : Tab → Tab}

theorem otherAccount_comm : otherAccount lower u v = otherAccount lower v u := by
  unfold otherAccount
  cases normalizeAccount lower u <;> cases normalizeAccount lower v <;> simp [eq_comm]

theorem clash_comm : clash lower a b = clash lower b a := by
  unfold clash
  rw [otherAccount_comm]
  by_cases h : a.serverId = b.serverId
  · rw [h]
    grind
  · have h' : b.serverId ≠ a.serverId := Ne.symm h
    simp [h, h']

theorem clash_of_findRdpConflict
    (h : findRdpConflict lower tabs t.serverId u excluded = none)
    (hu : otherAccount lower b.username u = true → otherAccount lower b.username t.username = true)
    (hb : b ∈ tabs) (hne : excluded ≠ some b.id) : clash lower t b = false := by
  unfold findRdpConflict at h
  rw [← Bool.not_eq_true]
  intro hclash
  simp only [clash, Bool.and_eq_true, Bool.not_eq_true', decide_eq_true_eq] at hclash
  obtain ⟨⟨⟨⟨⟨⟨-, hb'⟩, -⟩, hlive⟩, hserver⟩, hsame⟩, hother⟩ := hclash
  obtain ⟨server, hserver⟩ := Option.isSome_iff_exists.mp hserver
  rw [hserver] at h
  have hnone := List.find?_eq_none.mp h b hb
  rw [otherAccount_comm] at hother
  have hno : otherAccount lower b.username u = false := by
    by_contra hyes
    rw [hu (by simpa using hyes)] at hother
    cases hother
  rw [(truthy_eq_some.mp hserver).1] at hsame
  simp [hb', hlive, hno, ← hsame, hne] at hnone

theorem Apart.rewrite (h : Apart lower tabs) (hnodup : (tabs.map (·.id)).Nodup)
    (hf : ∀ t ∈ tabs, t.id = id → ∀ b ∈ tabs, b.id ≠ id → clash lower (f t) b = false) :
    Apart lower (rewrite tabs id f) := by
  unfold Apart Rdp.rewrite
  rw [List.pairwise_map]
  refine List.Pairwise.imp_of_mem ?_ (List.Pairwise.and h (List.pairwise_map.mp hnodup))
  rintro a b ha hb ⟨hab, hne⟩
  split_ifs with hia hib hib
  · exact absurd (hia.trans hib.symm) hne
  · exact hf a ha hia b hb hib
  · rw [clash_comm]
    exact hf b hb hib a ha hia
  · exact hab

theorem Apart.append (h : Apart lower tabs) (ht : ∀ b ∈ tabs, clash lower t b = false) :
    Apart lower (tabs ++ [t]) := by
  refine List.pairwise_append.mpr ⟨h, List.pairwise_singleton _ _, fun a ha b hb ↦ ?_⟩
  rw [List.mem_singleton.mp hb, clash_comm]
  exact ht a ha

theorem clash_of_checked (h : checked lower tabs t = true) (hb : b ∈ tabs) (hne : b.id ≠ t.id) :
    clash lower t b = false := by
  simp only [checked, Bool.or_eq_true, Bool.not_eq_true', Option.isNone_iff_eq_none] at h
  rcases h with (h | h) | h
  · simp [clash, h]
  · simp [clash, h]
  · exact clash_of_findRdpConflict h id hb fun he ↦ hne (Option.some.inj he).symm

structure Inv (lower : String → String) (tabs : List Tab) : Prop where
  apart : Apart lower tabs
  nodup : (tabs.map (·.id)).Nodup

theorem Inv.rewrite (h : Inv lower tabs) (hid : ∀ t, (f t).id = t.id)
    (hf : ∀ t ∈ tabs, t.id = id → ∀ b ∈ tabs, b.id ≠ id → clash lower (f t) b = false) :
    Inv lower (rewrite tabs id f) := by
  refine ⟨h.apart.rewrite h.nodup hf, ?_⟩
  have hids : (Rdp.rewrite tabs id f).map (·.id) = tabs.map (·.id) := by
    unfold Rdp.rewrite
    rw [List.map_map]
    refine List.map_congr_left fun t _ ↦ ?_
    show (if t.id = id then f t else t).id = t.id
    split
    · exact hid t
    · rfl
  rw [hids]
  exact h.nodup

theorem Inv.rewrite_checked (h : Inv lower tabs) (hid : ∀ t, (f t).id = t.id)
    (hall : (tabs.all fun t ↦ t.id ≠ id || checked lower tabs (f t)) = true) :
    Inv lower (Rdp.rewrite tabs id f) := by
  refine h.rewrite hid fun t ht hti b hb hne ↦ ?_
  have hchecked := List.all_eq_true.mp hall t ht
  simp only [hti, ne_eq, not_true_eq_false, decide_false, Bool.false_or] at hchecked
  exact clash_of_checked hchecked hb (by rw [hid, hti]; exact hne)

theorem Inv.addTab (h : Inv lower tabs) (hs : addTab tabs t = some tabs')
    (ht : ∀ b ∈ tabs, b.id ≠ t.id → clash lower t b = false) : Inv lower tabs' := by
  unfold Rdp.addTab at hs
  split at hs
  · cases hs
  · rename_i hnew
    obtain rfl := Option.some.inj hs
    have hne : ∀ b ∈ tabs, b.id ≠ t.id := fun b hb he ↦ hnew (he ▸ List.mem_map_of_mem hb)
    refine ⟨h.apart.append fun b hb ↦ ht b hb (hne b hb), ?_⟩
    rw [List.map_append]
    exact List.nodup_append.mpr ⟨h.nodup, List.nodup_singleton _, by grind⟩

theorem restore_spec (h : restore a = some b) : b.id = a.id ∧ (b.isRdp && b.isLive) = false := by
  unfold restore at h
  split_ifs at h
  · obtain rfl := Option.some.inj h
    exact ⟨rfl, rfl⟩
  · obtain rfl := Option.some.inj h
    exact ⟨rfl, rfl⟩
  · obtain rfl := Option.some.inj h
    exact ⟨rfl, rfl⟩

theorem inv_restored {stored : List Tab} (h : (stored.map (·.id)).Nodup) :
    Inv lower (stored.filterMap restore) := by
  constructor
  · refine List.Pairwise.imp_of_mem (fun ha _ _ ↦ ?_) (List.pairwise_of_forall fun _ _ ↦ trivial)
    obtain ⟨t, -, ht⟩ := List.mem_filterMap.mp ha
    have hnot := (restore_spec ht).2
    unfold clash
    grind
  · refine h.sublist ?_
    rw [List.map_filterMap]
    induction stored with
    | nil => exact .slnil
    | cons t stored ih =>
      have hrest := ih (List.nodup_cons.mp h).2
      cases ht : restore t with
      | none =>
        rw [List.filterMap_cons_none (by rw [ht]; rfl)]
        exact hrest.cons _
      | some b =>
        rw [List.filterMap_cons_some (by rw [ht]; rfl)]
        show (b.id :: _).Sublist _
        rw [(restore_spec ht).1]
        exact hrest.cons_cons _

theorem Inv.step (h : Inv lower tabs) (hs : step lower tabs e = some tabs')
    (hasks : Asks lower tabs e tabs') : Inv lower tabs' := by
  cases e with
  | openTab id connect m => exact h.addTab hs fun b hb hne ↦ clash_of_checked hasks hb hne
  | openRdpTab id requestId serverId username m =>
    simp only [step] at hs
    split at hs
    · rw [← Option.some.inj hs]
      exact h
    · rename_i hfree
      refine h.addTab hs fun b hb _ ↦ clash_of_findRdpConflict ?_ (fun h ↦ h) hb
        (Option.some_ne_none _).symm
      unfold findRdpConflict at hfree ⊢
      rw [newTab, truthy_truthy]
      exact hfree
  | openRequestTab id accessRequestId username =>
    simp only [step] at hs
    split at hs
    · rw [← Option.some.inj hs]
      exact h
    · exact h.addTab hs fun _ _ _ ↦ by simp [clash]
  | convertRequestTabToTerminal id connect m =>
    simp only [step] at hs
    split at hs
    · rw [← Option.some.inj hs]
      exact h
    · rename_i hfree
      rw [← Option.some.inj hs]
      cases hserver : m.serverId with
      | none =>
        rw [Asks, asks, hserver] at hasks
        exact h.rewrite_checked (fun _ ↦ rfl) hasks
      | some server =>
        refine h.rewrite (fun _ ↦ rfl) fun t ht hti b hb hne ↦ ?_
        cases hrdp : m.isRdp with
        | false => simp [clash, convertRequestTab, hrdp]
        | true =>
          rw [hrdp, Bool.true_and, Bool.not_eq_true, Option.isSome_eq_false_iff,
            Option.isNone_iff_eq_none] at hfree
          have hto : (convertRequestTab connect m t).serverId = m.serverId := by
            simp [convertRequestTab, hserver]
          refine clash_of_findRdpConflict (hto ▸ hfree) (fun hother ↦ ?_) hb
            fun he ↦ hne (Option.some.inj he).symm
          -- an account that is not known differs from none
          cases huser : m.username with
          | none => simp [otherAccount, normalizeAccount, huser] at hother
          | some name => simpa [convertRequestTab, huser] using hother
  | reconnectTab id connect username =>
    rw [← Option.some.inj hs]
    exact h.rewrite_checked (fun _ ↦ rfl) hasks
  | convertTabToRequest id accessRequestId =>
    rw [← Option.some.inj hs]
    exact h.rewrite (fun _ ↦ rfl) fun t _ _ b _ _ ↦ by simp [clash, convertToRequest, Tab.isLive]
  | setTabState id state =>
    rw [← Option.some.inj hs]
    exact h.rewrite_checked (fun _ ↦ rfl) hasks
  | closeTab id =>
    rw [← Option.some.inj hs]
    exact ⟨h.apart.sublist List.filter_sublist, h.nodup.sublist (List.filter_sublist.map _)⟩
  | reload stored =>
    simp only [step] at hs
    split at hs
    · rename_i hnodup
      rw [← Option.some.inj hs]
      exact inv_restored hnodup
    · cases hs

theorem one_logon {es : List Event} (hrun : Run (Rdp.step lower) (Asks lower) [] es tabs) :
    Apart lower tabs :=
  (hrun.invariant (I := Inv lower) ⟨.nil, .nil⟩ fun _ _ _ h hs hasks ↦ h.step hs hasks).apart

end

def twoAccounts : List Event :=
  [.openRdpTab "a" "first" (some "server") (some "Administrator") {},
   .openRdpTab "b" "second" (some "server") (some "operator") {},
   .setTabState "a" "live", .setTabState "b" "reconnecting"]

theorem twoAccounts_apart :
    ∃ tabs, Run (step id) (Asks id) [] twoAccounts tabs ∧ Apart id tabs := by
  have hview : (execIf (step id) (asks id) [] twoAccounts).map (fun _ ↦ ()) = some () := rfl
  obtain ⟨tabs, hrun, -⟩ := exists_run hview
  exact ⟨tabs, hrun, one_logon hrun⟩

theorem reconnected_evicts :
    ¬ ∀ (lower : String → String) es tabs, Run (step lower) free [] es tabs → Apart lower tabs := by
  intro h
  obtain ⟨tabs, hs⟩ : ∃ tabs, exec (step id) []
      [.openRdpTab "a" "request" (some "server") none {}, .setTabState "a" "ended",
       .openRdpTab "b" "request" (some "server") none {}, .setTabState "a" "connecting"] =
        some tabs := ⟨_, rfl⟩
  have hapart := h id _ tabs (run_of_exec hs)
  obtain rfl := Option.some.inj hs
  exact absurd hapart (by unfold Apart; decide)

end Shellius.Workspace.Rdp
