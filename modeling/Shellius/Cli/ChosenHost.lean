import Shellius.Cli.Connecting

/-!
# Where the CLI connects

A message does not say which screen asked for it.  One that comes late is taken by a form for
another host, credentials that come late connect from whatever screen is shown, and Enter submits
the form again while it is being submitted.  `onTime` is the condition that every message that
matters comes while the screen that asked for it is shown, and that Enter is pressed once.
-/

namespace Shellius.Cli.Connecting

open Lib

/-! ## The condition -/

/-- The message comes to the screen that asked for it, or to one that does not know it. -/
def onScreen (s : App) (f : Flight) : Task → Answer → Bool
  | .hostSelected _, _ => s.view ≠ .hostList || f.turn = s.turn
  | .activeAccessConnect _, _ => s.view ≠ .activeAccess || f.turn = s.turn
  | .fetchIntent _, .intent _ | .submit _, .request _ | .pollRequest _, .request _
  | .arApproved .., _ =>
    s.view ≠ .accessRequest || f.turn = s.accessRequest.turn && f.turn = s.turn
  | .sshConnect .., .done | .connectRDP .., .done => s.view = f.origin.view && f.turn = s.turn
  | _, _ => true

/-- No request of the form is being submitted when it is submitted, and messages come to the screen
that asked for them. -/
def onTime (s : App) : Event → Bool
  | .validateAndSubmit valid => !valid || s.tasks.all fun f ↦ !f.submits s.accessRequest.turn
  | .message n answer => (s.tasks[n]?).all fun f ↦ onScreen s f f.task answer
  | _ => true

def OnTime (s : App) (e : Event) (_ : App) : Prop := onTime s e = true

/-! ## The invariant -/

section

variable (serverOf : Id → Id)

def Task.Concerns (selected : Host) : Task → Prop
  | .hostSelected host => host = selected
  | .activeAccessConnect req => req.host = selected ∧ serverOf req.id = selected.id
  | .fetchIntent hostId | .submit hostId => hostId = selected.id
  | .pollRequest id | .arApproved id _ => serverOf id = selected.id
  | .getSshCredentials id host | .sshConnect id host => serverOf id = selected.id ∧ host = selected
  | .connectRDP id hostLabel => serverOf id = selected.id ∧ hostLabel = selected.displayName
  | .navBack | .arErr | .ssh | .rdpLaunched | .arWebTerminal => True

/-- A task was started for the last selection, or for one before. -/
structure Flight.Started (s : App) (f : Flight) : Prop where
  le : f.turn ≤ s.turn
  concerns : f.turn = s.turn → f.task.Concerns serverOf s.selected

structure Inv (s : App) : Prop where
  tasks : ∀ f ∈ s.tasks, f.Started serverOf s
  formTurn : s.accessRequest.turn ≤ s.turn
  /-- The form of the last selection is for the host that was selected. -/
  form : s.accessRequest.turn = s.turn →
    s.accessRequest.host = s.selected ∧ s.selectedHost = s.selected
  chosen : s.Chosen serverOf

end

section

variable {serverOf : Id → Id} {s t : App} {f : Flight} {task : Task} {answer : Answer} {e : Event}

theorem not_submits (hne : ∀ id, task ≠ .submit id) (turn : Nat) :
    Flight.submits turn { f with task } = false := by
  cases task with
  | submit id => exact absurd rfl (hne id)
  | _ => exact Bool.and_false _

theorem Inv.start (h : Inv serverOf s) (hle : f.turn ≤ s.turn)
    (hconcerns : f.turn = s.turn → task.Concerns serverOf s.selected)
    (hne : ∀ id, task ≠ .submit id) : Inv serverOf (s.start f task) where
  tasks := fun g hg ↦ by
    rcases List.mem_append.mp hg with hg | hg
    · exact ⟨(h.tasks g hg).le, (h.tasks g hg).concerns⟩
    · obtain rfl := List.mem_singleton.mp hg
      exact ⟨hle, hconcerns⟩
  formTurn := h.formTurn
  form := h.form
  chosen :=
    { connections := h.chosen.connections
      once := fun turn ↦ by
        show (s.tasks ++ [{ f with task }]).countP _ ≤ 1
        rw [List.countP_append, List.countP_singleton, if_neg (by rw [not_submits hne]; simp)]
        exact h.chosen.once turn }

theorem Inv.setView (h : Inv serverOf s) (view prevView : View) :
    Inv serverOf { s with view, prevView } :=
  ⟨fun f hf ↦ ⟨(h.tasks f hf).le, (h.tasks f hf).concerns⟩, h.formTurn, h.form,
    ⟨h.chosen.connections, h.chosen.once⟩⟩

theorem Inv.setForm (h : Inv serverOf s) {form : AccessRequestModel}
    (hhost : form.host = s.accessRequest.host) (hturn : form.turn = s.accessRequest.turn) :
    Inv serverOf { s with accessRequest := form } := by
  refine ⟨fun f hf ↦ ⟨(h.tasks f hf).le, (h.tasks f hf).concerns⟩, ?_, fun hnow ↦ ?_,
    ⟨h.chosen.connections, h.chosen.once⟩⟩
  · exact hturn ▸ h.formTurn
  · obtain ⟨hform, hselected⟩ := h.form (hturn.symm.trans hnow)
    exact ⟨hhost.trans hform, hselected⟩

theorem Inv.erase (h : Inv serverOf s) (n : Nat) :
    Inv serverOf { s with tasks := s.tasks.eraseIdx n } :=
  ⟨fun f hf ↦ ⟨(h.tasks f (List.mem_of_mem_eraseIdx hf)).le,
      (h.tasks f (List.mem_of_mem_eraseIdx hf)).concerns⟩, h.formTurn, h.form,
    ⟨h.chosen.connections, fun turn ↦
      Nat.le_trans (List.eraseIdx_sublist s.tasks n).countP_le (h.chosen.once turn)⟩⟩

theorem Inv.onForm (h : Inv serverOf s) (ht : s.view = .accessRequest → Inv serverOf t) :
    Inv serverOf (s.onForm t) := by
  unfold App.onForm
  split
  · exact ht ‹_›
  · exact h

theorem Inv.fetchCredentials (h : Inv serverOf s) (hle : f.turn ≤ s.turn) {id : Id}
    {protocol : String} {host : Host}
    (hselected : f.turn = s.turn → serverOf id = s.selected.id ∧ host = s.selected) :
    Inv serverOf (s.fetchCredentials f id protocol host) := by
  unfold App.fetchCredentials
  split
  · refine h.start hle (fun hnow ↦ ?_) fun _ ↦ Task.noConfusion
    obtain ⟨hid, rfl⟩ := hselected hnow
    exact ⟨hid, rfl⟩
  · exact h.start hle hselected fun _ ↦ Task.noConfusion

theorem Inv.connect (h : Inv serverOf s) {id : Id} {name : String} {serverId : Option Id}
    (hview : s.view = f.origin.view) (hnow : f.turn = s.turn) (hid : serverOf id = s.selected.id)
    (hname : name = s.selected.displayName) (hserver : ∀ id ∈ serverId, id = s.selected.id) :
    Inv serverOf (s.connect f id name serverId) := by
  refine ⟨fun f hf ↦ ⟨(h.tasks f hf).le, (h.tasks f hf).concerns⟩, h.formTurn, h.form,
    ⟨fun c hc ↦ ?_, h.chosen.once⟩⟩
  rcases List.mem_append.mp hc with hc | hc
  · exact h.chosen.connections c hc
  · obtain rfl := List.mem_singleton.mp hc
    refine ⟨hid, hname, hserver, decide_eq_false ?_⟩
    rintro (hne | hne)
    · exact hne hview
    · exact hne hnow

theorem Inv.intentLoaded (h : Inv serverOf s) (hle : f.turn ≤ s.turn) {i : AccessIntent}
    (hi : f.turn = s.turn → ∀ r ∈ i.activeAccessRequest, serverOf r.id = s.selected.id) :
    Inv serverOf (s.intentLoaded f i) := by
  have hform : ∀ (state : AccessRequestState) (request : Option AccessRequest),
      Inv serverOf { s with accessRequest := { s.accessRequest with
        protocolSSH := s.accessRequest.protocolSSH && i.protocol ≠ "RDP", state, request } } :=
    fun _ _ ↦ h.setForm rfl rfl
  unfold App.intentLoaded
  cases hr : i.activeAccessRequest with
  | none => exact hform _ _
  | some r =>
    have hnow : f.turn = s.turn → serverOf r.id = s.selected.id := fun hnow ↦ hi hnow r hr
    dsimp only
    split
    · exact (hform _ _).start hle hnow fun _ ↦ Task.noConfusion
    · split
      · exact (hform _ _).start hle hnow fun _ ↦ Task.noConfusion
      · exact hform _ _

theorem Inv.polled (h : Inv serverOf s) (hle : f.turn ≤ s.turn) {r : AccessRequest}
    (hr : f.turn = s.turn → serverOf r.id = s.selected.id) : Inv serverOf (s.polled f r) := by
  have hform : ∀ (state : AccessRequestState) (request : Option AccessRequest),
      Inv serverOf (s.setForm state request) := fun _ _ ↦ h.setForm rfl rfl
  unfold App.polled
  split
  · exact (hform _ _).start hle hr fun _ ↦ Task.noConfusion
  · split
    · exact hform _ _
    · exact (hform _ _).start hle hr fun _ ↦ Task.noConfusion

theorem Inv.hostSelected (h : Inv serverOf s) (hle : f.turn ≤ s.turn) {host : Host}
    (hnow : f.turn = s.turn → host = s.selected) :
    Inv serverOf ({ s with
      selectedHost := host
      prevView := .hostList
      view := .accessRequest
      accessRequest := { host, turn := f.turn } }.start f (.fetchIntent host.id)) := by
  refine Inv.start (s := { s with
    selectedHost := host
    prevView := .hostList
    view := .accessRequest
    accessRequest := { host, turn := f.turn } }) ?_ hle
    (fun hturn ↦ congrArg Host.id (hnow hturn)) fun _ ↦ Task.noConfusion
  exact ⟨fun f hf ↦ ⟨(h.tasks f hf).le, (h.tasks f hf).concerns⟩, hle,
    fun hturn ↦ ⟨hnow hturn, hnow hturn⟩, ⟨h.chosen.connections, h.chosen.once⟩⟩

/-! ## Steps -/

/-- A message that comes to the screen that asked for it. -/
theorem Inv.receive (h : Inv serverOf s) (hf : f.turn ≤ s.turn)
    (hconcerns : f.turn = s.turn → task.Concerns serverOf s.selected)
    (hon : onScreen s f task answer = true)
    (hr : receive serverOf s f task answer = some t) : Inv serverOf t := by
  cases task with
  | hostSelected host =>
    cases answer with
    | done =>
      obtain rfl := Option.some.inj hr
      split
      · exact h.hostSelected hf hconcerns
      · exact h
    | intent | request | fallback | failed => cases hr
  | activeAccessConnect req =>
    cases answer with
    | done =>
      obtain rfl := Option.some.inj hr
      split
      · exact h.fetchCredentials hf fun hnow ↦ (hconcerns hnow).symm
      · exact h
    | intent | request | fallback | failed => cases hr
  | navBack =>
    cases answer with
    | done =>
      obtain rfl := Option.some.inj hr
      split
      · exact h.setView _ _
      · exact h
    | intent | request | fallback | failed => cases hr
  | fetchIntent hostId =>
    cases answer with
    | intent i =>
      obtain ⟨hi, hr⟩ := Option.ite_none_right_eq_some.mp hr
      obtain rfl := Option.some.inj hr
      refine h.onForm fun _ ↦ h.intentLoaded hf fun hnow r hmem ↦ ?_
      exact (hi r hmem).trans (hconcerns hnow)
    | failed =>
      obtain rfl := Option.some.inj hr
      exact h.onForm fun _ ↦ h.setForm rfl rfl
    | request | done | fallback => cases hr
  | arErr =>
    cases answer with
    | done =>
      obtain rfl := Option.some.inj hr
      exact h.onForm fun _ ↦ h.setForm rfl rfl
    | intent | request | fallback | failed => cases hr
  | submit hostId =>
    cases answer with
    | request r =>
      obtain ⟨hid, hr⟩ := Option.ite_none_right_eq_some.mp hr
      obtain rfl := Option.some.inj hr
      refine h.onForm fun _ ↦ Inv.start (h.setForm rfl rfl) hf (fun hnow ↦ ?_)
        fun _ ↦ Task.noConfusion
      exact hid.trans (hconcerns hnow)
    | failed =>
      obtain rfl := Option.some.inj hr
      exact h.onForm fun _ ↦ h.setForm rfl rfl
    | intent | done | fallback => cases hr
  | pollRequest id =>
    cases answer with
    | request r =>
      obtain ⟨hid, hr⟩ := Option.ite_none_right_eq_some.mp hr
      obtain rfl := Option.some.inj hr
      refine h.onForm fun _ ↦ h.polled hf fun hnow ↦ ?_
      rw [hid]
      exact hconcerns hnow
    | failed =>
      obtain rfl := Option.some.inj hr
      exact h.onForm fun _ ↦ h.setForm rfl rfl
    | intent | done | fallback => cases hr
  | arApproved id protocol =>
    cases answer with
    | done =>
      obtain rfl := Option.some.inj hr
      refine h.onForm fun hview ↦ h.fetchCredentials hf fun hnow ↦ ⟨hconcerns hnow, ?_⟩
      -- the form that is shown is that of the last selection
      rw [onScreen, Bool.or_eq_true, Bool.and_eq_true, decide_eq_true_iff,
        decide_eq_true_iff, decide_eq_true_iff] at hon
      obtain ⟨hform, -⟩ := hon.resolve_left (absurd hview)
      exact (h.form (hform.symm.trans hnow)).2
    | intent | request | fallback | failed => cases hr
  | getSshCredentials id host =>
    cases answer with
    | done =>
      obtain rfl := Option.some.inj hr
      exact h.start hf hconcerns fun _ ↦ Task.noConfusion
    | fallback =>
      obtain rfl := Option.some.inj hr
      exact h.start hf (fun _ ↦ trivial) fun _ ↦ Task.noConfusion
    | failed =>
      obtain rfl := Option.some.inj hr
      exact h.setView _ _
    | intent | request => cases hr
  | sshConnect id host =>
    cases answer with
    | done =>
      obtain rfl := Option.some.inj hr
      rw [onScreen, Bool.and_eq_true, decide_eq_true_iff, decide_eq_true_iff] at hon
      obtain ⟨hview, hnow⟩ := hon
      obtain ⟨hid, rfl⟩ := hconcerns hnow
      refine Inv.start (h.connect hview hnow hid rfl fun id hid ↦ ?_) hf (fun _ ↦ trivial)
        fun _ ↦ Task.noConfusion
      exact (Option.some.inj hid).symm
    | failed =>
      obtain rfl := Option.some.inj hr
      exact h.setView _ _
    | intent | request | fallback => cases hr
  | connectRDP id hostLabel =>
    cases answer with
    | done =>
      obtain rfl := Option.some.inj hr
      rw [onScreen, Bool.and_eq_true, decide_eq_true_iff, decide_eq_true_iff] at hon
      obtain ⟨hview, hnow⟩ := hon
      obtain ⟨hid, hname⟩ := hconcerns hnow
      refine Inv.start (h.connect hview hnow hid hname fun id hid ↦ ?_) hf (fun _ ↦ trivial)
        fun _ ↦ Task.noConfusion
      cases hid
    | fallback =>
      obtain rfl := Option.some.inj hr
      exact h.start hf (fun _ ↦ trivial) fun _ ↦ Task.noConfusion
    | failed =>
      obtain rfl := Option.some.inj hr
      exact h.setView _ _
    | intent | request => cases hr
  | ssh =>
    cases answer with
    | done =>
      obtain rfl := Option.some.inj hr
      exact h.setView _ _
    | failed =>
      obtain rfl := Option.some.inj hr
      exact h.setView _ _
    | intent | request | fallback => cases hr
  | rdpLaunched =>
    cases answer with
    | done =>
      obtain rfl := Option.some.inj hr
      exact h.setView _ _
    | intent | request | fallback | failed => cases hr
  | arWebTerminal =>
    cases answer with
    | done =>
      obtain rfl := Option.some.inj hr
      exact h.onForm fun _ ↦ h.setForm rfl rfl
    | intent | request | fallback | failed => cases hr

theorem Inv.select (h : Inv serverOf s) {selected : Host} {origin : Origin}
    (hconcerns : task.Concerns serverOf selected) (hne : ∀ id, task ≠ .submit id) :
    Inv serverOf { s with
      turn := s.turn + 1
      selected
      tasks := s.tasks ++ [⟨task, s.turn + 1, origin⟩] } where
  tasks := fun f hf ↦ by
    rcases List.mem_append.mp hf with hf | hf
    · have hle := (h.tasks f hf).le
      refine ⟨Nat.le_succ_of_le hle, fun hnow ↦ ?_⟩
      have hlt : f.turn = s.turn + 1 := hnow
      omega
    · obtain rfl := List.mem_singleton.mp hf
      exact ⟨Nat.le_refl _, fun _ ↦ hconcerns⟩
  formTurn := Nat.le_succ_of_le h.formTurn
  form := fun hnow ↦ by
    have hle := h.formTurn
    have hlt : s.accessRequest.turn = s.turn + 1 := hnow
    omega
  chosen :=
    { connections := h.chosen.connections
      once := fun turn ↦ by
        show List.countP (Flight.submits turn) (s.tasks ++ [⟨task, s.turn + 1, origin⟩]) ≤ 1
        have hother : Flight.submits turn ⟨task, s.turn + 1, origin⟩ = false :=
          not_submits (f := ⟨task, s.turn + 1, origin⟩) hne turn
        rw [List.countP_append, List.countP_singleton, if_neg (by rw [hother]; simp)]
        exact h.chosen.once turn }

theorem Inv.submit (h : Inv serverOf s)
    (hno : (s.tasks.all fun f ↦ !f.submits s.accessRequest.turn) = true) {origin : Origin}
    {other : Task} :
    Inv serverOf (s.start ⟨other, s.accessRequest.turn, origin⟩
      (.submit s.accessRequest.host.id)) where
  tasks := fun f hf ↦ by
    rcases List.mem_append.mp hf with hf | hf
    · exact ⟨(h.tasks f hf).le, (h.tasks f hf).concerns⟩
    · obtain rfl := List.mem_singleton.mp hf
      exact ⟨h.formTurn, fun hnow ↦ congrArg Host.id (h.form hnow).1⟩
  formTurn := h.formTurn
  form := h.form
  chosen :=
    { connections := h.chosen.connections
      once := fun turn ↦ by
        show (s.tasks ++ [_]).countP _ ≤ 1
        rw [List.countP_append, List.countP_singleton]
        by_cases hturn : s.accessRequest.turn = turn
        · -- it is the first one of this form
          subst hturn
          have hnone : s.tasks.countP (Flight.submits s.accessRequest.turn) = 0 := by
            refine List.countP_eq_zero.mpr fun f hf hsubmits ↦ ?_
            have hnot := List.all_eq_true.mp hno f hf
            rw [hsubmits] at hnot
            cases hnot
          rw [hnone]
          split <;> omega
        · have hother : Flight.submits turn
              ⟨.submit s.accessRequest.host.id, s.accessRequest.turn, origin⟩ = false := by
            rw [Flight.submits, decide_eq_false hturn, Bool.false_and]
          rw [if_neg (by rw [hother]; simp)]
          exact h.chosen.once turn }

/-- A step keeps the CLI with what the user chose. -/
theorem Inv.step (h : Inv serverOf s) (hon : OnTime s e t) (hstep : step serverOf s e = some t) :
    Inv serverOf t := by
  cases e with
  | enterHost host =>
    obtain ⟨-, hstep⟩ := Option.ite_none_right_eq_some.mp hstep
    obtain rfl := Option.some.inj hstep
    exact h.select rfl fun _ ↦ Task.noConfusion
  | enterRequest req =>
    obtain ⟨⟨-, hserver⟩, hstep⟩ := Option.ite_none_right_eq_some.mp hstep
    obtain rfl := Option.some.inj hstep
    exact h.select ⟨rfl, hserver⟩ fun _ ↦ Task.noConfusion
  | toggleProtocol =>
    obtain ⟨-, hstep⟩ := Option.ite_none_right_eq_some.mp hstep
    obtain rfl := Option.some.inj hstep
    exact h.setForm rfl rfl
  | validateAndSubmit valid =>
    obtain ⟨-, hstep⟩ := Option.ite_none_right_eq_some.mp hstep
    obtain rfl := Option.some.inj hstep
    cases valid with
    | true => exact h.submit hon
    | false => exact h.start h.formTurn (fun _ ↦ trivial) fun _ ↦ Task.noConfusion
  | esc =>
    unfold Connecting.step at hstep
    dsimp only at hstep
    split at hstep
    · obtain ⟨-, hstep⟩ := Option.ite_none_right_eq_some.mp hstep
      obtain rfl := Option.some.inj hstep
      exact h.start h.formTurn (fun _ ↦ trivial) fun _ ↦ Task.noConfusion
    · obtain rfl := Option.some.inj hstep
      exact h.start (Nat.le_refl _) (fun _ ↦ trivial) fun _ ↦ Task.noConfusion
    · obtain rfl := Option.some.inj hstep
      exact h.setView _ _
    · obtain rfl := Option.some.inj hstep
      exact h.setView _ _
    · obtain rfl := Option.some.inj hstep
      exact h.setView _ _
    · cases hstep
    · cases hstep
  | message n answer =>
    obtain ⟨f, hf, hr⟩ := Option.bind_eq_some_iff.mp hstep
    obtain ⟨hle, hconcerns⟩ := h.tasks f (List.mem_of_getElem? hf)
    rw [OnTime, onTime, hf, Option.all_some] at hon
    exact (h.erase n).receive hle hconcerns hon hr
  | openHostList =>
    obtain rfl := Option.some.inj hstep
    exact h.setView _ _
  | openMyRequests =>
    obtain rfl := Option.some.inj hstep
    exact h.setView _ _
  | openOverlay =>
    obtain rfl := Option.some.inj hstep
    exact h.setView _ _
  | sessionExpired =>
    obtain rfl := Option.some.inj hstep
    exact h.setView _ _
  | loginSuccess =>
    obtain ⟨-, hstep⟩ := Option.ite_none_right_eq_some.mp hstep
    obtain rfl := Option.some.inj hstep
    exact h.setView _ _

theorem Inv.init : Inv serverOf {} where
  tasks := fun _ hf ↦ absurd hf List.not_mem_nil
  formTurn := Nat.le_refl 0
  form := fun _ ↦ ⟨rfl, rfl⟩
  chosen := ⟨fun _ hc ↦ absurd hc List.not_mem_nil, fun _ ↦ Nat.zero_le _⟩

end

/-! ## The claim -/

/-- **The CLI connects where the user chose,** as long as messages come to the screen that asked for
them and a form is not submitted again while it is being submitted. -/
theorem connects_where_chosen {serverOf : Id → Id} {es : List Event} {t : App}
    (hrun : Run (step serverOf) OnTime {} es t) : t.Chosen serverOf :=
  (hrun.invariant Inv.init fun _ _ _ hs hstep hon ↦ hs.step hon hstep).chosen

def named (id : Id) : Id := .ofList (id.toList.takeWhile (· ≠ '-'))

def alpha : Host := { id := "a", name := "alpha" }

def beta : Host := { id := "b", name := "beta" }

def requestOf (host : Host) (status : String) : AccessRequest where
  id := host.id ++ "-1"
  serverId := host.id
  status
  displayName := host.name

def patiently : List Event :=
  [.openHostList, .enterHost alpha, .message 0 .done, .message 0 (.intent {}),
    .validateAndSubmit true, .message 0 (.request (requestOf alpha "PENDING")),
    .message 0 (.request (requestOf alpha "PENDING")),
    .message 0 (.request (requestOf alpha "APPROVED")), .message 0 .done, .message 0 .done,
    .message 0 .done, .message 0 .done, .enterRequest (requestOf alpha "APPROVED"),
    .message 0 .done, .message 0 .done, .message 0 .done]

theorem connects_where_chosen_in_use :
    ∃ t, Run (step named) OnTime {} patiently t ∧ t.Chosen named ∧
      t.connections.map (fun c ↦ (c.requestId, c.name)) = [("a-1", "alpha"), ("a-1", "alpha")] := by
  have hview : (execIf (step named) onTime {} patiently).map
      (fun t ↦ t.connections.map fun c ↦ (c.requestId, c.name)) =
        some [("a-1", "alpha"), ("a-1", "alpha")] := by decide +kernel
  obtain ⟨t, hrun, hconnections⟩ := exists_run hview
  exact ⟨t, hrun, connects_where_chosen hrun, hconnections⟩

def hastily : List Event :=
  [.openHostList, .enterHost alpha, .message 0 .done, .openHostList, .enterHost beta,
    .message 1 .done,
    .message 0 (.intent { hasActiveAccess := true, activeAccessRequest := requestOf alpha "APPROVED" }),
    .message 1 .done, .message 1 .done, .message 1 .done]

def twice : List Event :=
  [.openHostList, .enterHost alpha, .message 0 .done, .message 0 (.intent {}),
    .validateAndSubmit true, .validateAndSubmit true]

/-- A late message connects to a host that was not chosen, under the name of the one that was; and a
form is submitted while it is being submitted. -/
theorem connects_elsewhere :
    (∃ t, Run (step named) free {} hastily t ∧
      t.connections.map (fun c ↦ (c.requestId, c.name)) = [("a-1", "beta")] ∧ ¬ t.Chosen named) ∧
    ∃ t, Run (step named) free {} twice t ∧ ¬ t.Chosen named := by
  constructor
  · have hview : (exec (step named) {} hastily).map App.connections =
        some [⟨"a-1", "beta", some "b", beta, true⟩] := by decide +kernel
    obtain ⟨t, hrun, hconnections⟩ := exists_run_free hview
    refine ⟨t, hrun, by rw [hconnections]; rfl, fun hchosen ↦ ?_⟩
    have hserver := (hchosen.connections ⟨"a-1", "beta", some "b", beta, true⟩ (by
      rw [hconnections]
      exact List.mem_singleton_self _)).server
    exact absurd hserver (by decide)
  · have hview : (exec (step named) {} twice).map (fun t ↦ t.tasks.countP (Flight.submits 1)) =
        some 2 := by decide +kernel
    obtain ⟨t, hrun, hcount⟩ := exists_run_free hview
    refine ⟨t, hrun, fun hchosen ↦ ?_⟩
    have honce := hchosen.once 1
    omega

end Shellius.Cli.Connecting
