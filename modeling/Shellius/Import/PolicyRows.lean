import Shellius.Import.Meaning

/-!
# Policy rows

The policy that a row of a policy leaves behind.  Its subjects are those of the names that stand for
something, its approver group is none if the name stands for nothing, and an overwrite puts the
default into every column that the row leaves out.  So a policy row that was imported is faithful
just when it is plain (`policy_faithful_iff`).
-/

namespace Shellius.Import

open Lib Action

variable {env : Surroundings} {job : ImportJob} {row : ImportRow} {orgId : Id} {raw : Raw}
  {w v : Working} {overwrite : Bool}

/-! ## Rows of policies -/

theorem find?_change {α κ : Type} [DecidableEq κ] {key : α → κ} {t : Keyed key} {k : κ} {f : α → α}
    {q : α → Bool} {a : α} (hq : q (f a) = q a) (hk : key a = k) (hf : key (f a) = k)
    (h : t.rows.find? q = some a) : (t.change k f).rows.find? q = some (f a) := by
  have hrow : ∀ b ∈ t, key b = k → b = a := fun b hb hb' ↦
    t.ext hb (List.mem_of_find?_eq_some h) (hb'.trans hk.symm)
  show (t.rows.map fun b ↦ if key b = k ∧ key (f b) = k then f b else b).find? q = some (f a)
  rw [List.find?_map]
  have hcongr : ∀ b ∈ t.rows,
      (q ∘ fun b ↦ if key b = k ∧ key (f b) = k then f b else b) b = q b := by
    intro b hb
    show q (if key b = k ∧ key (f b) = k then f b else b) = q b
    split
    · rename_i hc
      rw [hrow b hb hc.1, hq]
    · rfl
  rw [find?_congr hcongr, h, Option.map_some, if_pos ⟨hk, hf⟩]

theorem checkPolicy_eq_ok {d : Db} {data : PolicyInput} {effect : PolicyEffect}
    (h : checkPolicy d orgId data = .ok effect) : effects.lookup data.effect = some effect := by
  simp only [checkPolicy, bind_eq_ok, demand_eq_ok, pure_eq_ok] at h
  obtain ⟨-, -, effect', heffect, -, -, rfl⟩ := h
  exact heffect

/-- What is in the table of policies once a row is done with it. -/
inductive PolicySaved (w : Working) (orgId : Id) (data : PolicyInput) (overwrite : Bool) :
    Keyed (fun p : PolicyRow ↦ p.id) → Prop
  | created {p : PolicyRow} (hp : ∀ q ∈ w.db.policies, q.id ≠ p.id) :
      w.db.policyNamed orgId data.name = none → p.orgId = orgId → p.name = data.name →
      p.subjects = data.subjects.eraseDups → p.approverGroupId = truthy data.approverGroupId →
      PolicySaved w orgId data overwrite (w.db.policies.insert p hp)
  | overwritten {p : PolicyRow} {effect : PolicyEffect} :
      w.db.policyNamed orgId data.name = some p → overwrite = true →
      effects.lookup data.effect = some effect →
      PolicySaved w orgId data overwrite (w.db.policies.change p.id (.patch data effect))
  | there {p : PolicyRow} : w.db.policyNamed orgId data.name = some p → overwrite = false →
      PolicySaved w orgId data overwrite w.db.policies

theorem savePolicy_ensures :
    Ensures (fun v ↦ v.db.policies = w.db.policies) (savePolicy env orgId raw overwrite)
      (fun _ v ↦ ∃ data, policyInput env w orgId raw = .ok data ∧
        PolicySaved w orgId data overwrite v.db.policies) w := by
  unfold savePolicy
  rw [ensures_bind, ensures_get, ensures_bind, ensures_lift]
  refine ⟨fun data hdata ↦ ?_, fun _ _ ↦ rfl⟩
  split
  · rename_i p hp
    split
    · rename_i hover
      unfold updatePolicy
      rw [ensures_bind, ensures_bind, ensures_get, ensures_bind, ensures_lift]
      refine ⟨fun effect heffect ↦ ?_, fun _ _ ↦ rfl⟩
      exact ⟨data, hdata, .overwritten hp hover (checkPolicy_eq_ok heffect)⟩
    · rename_i hover
      exact ⟨data, hdata, .there hp (Bool.not_eq_true _ ▸ hover)⟩
  · rename_i hnone
    unfold createPolicy
    rw [ensures_bind, ensures_check]
    refine ⟨fun _ ↦ ?_, fun _ ↦ rfl⟩
    rw [ensures_bind, ensures_check]
    refine ⟨fun _ ↦ ?_, fun _ ↦ rfl⟩
    rw [ensures_bind, ensures_get, ensures_bind, ensures_lift]
    refine ⟨fun effect _ ↦ ?_, fun _ _ ↦ rfl⟩
    rw [ensures_bind]
    unfold cuid
    rw [ensures_bind, ensures_get, ensures_bind, ensures_set, ensures_pure, ensures_bind,
      ensures_orFail]
    refine ⟨fun policies hpolicies ↦ ?_, fun _ ↦ rfl⟩
    obtain ⟨hfree, rfl⟩ := Keyed.insert?_eq_some.mp hpolicies
    exact ⟨data, hdata, .created hfree hnone rfl rfl rfl rfl⟩

theorem commitPolicy_ensures :
    Ensures (fun v ↦ v.db.policies = w.db.policies) (commitPolicy env orgId row overwrite)
      (fun _ v ↦ ∃ data, policyInput env w orgId row.raw = .ok data ∧
        PolicySaved w orgId data overwrite v.db.policies) w := by
  unfold commitPolicy
  rw [ensures_bind]
  exact savePolicy_ensures.mono (fun _ h ↦ h) fun _ _ h ↦ h

/-! ## Subjects and approvers -/

theorem mem_mapM_ok {α β ε : Type} {f : α → Except ε β} {l : List α} {bs : List β}
    (h : l.mapM f = .ok bs) : ∀ b, b ∈ bs ↔ ∃ a ∈ l, f a = .ok b := by
  induction l generalizing bs with
  | nil =>
    obtain rfl := Except.ok.inj h
    simp
  | cons a l ih =>
    rw [List.mapM_cons] at h
    simp only [bind_eq_ok, pure_eq_ok] at h
    obtain ⟨b, hb, bs', hbs, rfl⟩ := h
    intro c
    rw [List.mem_cons, ih hbs c]
    constructor
    · rintro (rfl | ⟨a', ha', hc⟩)
      · exact ⟨a, List.mem_cons_self, hb⟩
      · exact ⟨a', List.mem_cons_of_mem a ha', hc⟩
    · rintro ⟨a', ha', hc⟩
      rcases List.mem_cons.mp ha' with rfl | ha'
      · exact .inl (Except.ok.inj (hc.symm.trans hb))
      · exact .inr ⟨a', ha', hc⟩

theorem mapM_ok {α β ε : Type} {f : α → Except ε β} {l : List α} {bs : List β}
    (h : l.mapM f = .ok bs) : ∀ a ∈ l, ∃ b, f a = .ok b := by
  induction l generalizing bs with
  | nil => simp
  | cons a l ih =>
    rw [List.mapM_cons] at h
    simp only [bind_eq_ok] at h
    obtain ⟨b, hb, bs', hbs, -⟩ := h
    intro a' ha'
    rcases List.mem_cons.mp ha' with rfl | ha'
    · exact ⟨b, hb⟩
    · exact ih hbs a' ha'

structure SubjectsRead (env : Surroundings) (w : Working) (orgId : Id) (raw : Raw)
    (subjects : List PolicySubject) : Prop where
  named : ∀ kind id, ⟨kind, id⟩ ∈ subjects ↔
    ∃ name ∈ subjectNames env raw kind, denotes env w orgId kind name = some id
  roles : ∀ name ∈ subjectNames env raw .role, (denotes env w orgId .role name).isSome

theorem roleKeys_eq_ok {column : String} {names keys : List String}
    (h : roleKeys env w orgId column names = .ok keys) :
    (∀ key, key ∈ keys ↔ ∃ name ∈ names, denotes env w orgId .role name = some key) ∧
      ∀ name ∈ names, (denotes env w orgId .role name).isSome := by
  have hrole : ∀ name key,
      (demand (resolveRole env.rules w.db.tenancy orgId name)
        (Keystore.plainError ("Unknown role \"" ++ name ++ "\" in " ++ column))).map (·.key) =
          .ok key ↔ denotes env w orgId .role name = some key := by
    intro name key
    rw [map_eq_ok]
    simp only [demand_eq_ok]
    exact Option.map_eq_some_iff.symm
  constructor
  · intro key
    rw [mem_mapM_ok h key]
    exact exists_congr fun name ↦ and_congr_right fun _ ↦ hrole name key
  · intro name hname
    obtain ⟨key, hkey⟩ := mapM_ok h name hname
    rw [(hrole name key).mp hkey]
    rfl

theorem policySubjects_eq_ok {subjects : List PolicySubject}
    (h : policySubjects env w orgId raw = .ok subjects) : SubjectsRead env w orgId raw subjects := by
  simp only [policySubjects, bind_eq_ok, pure_eq_ok] at h
  obtain ⟨roles, hroles, rfl⟩ := h
  obtain ⟨hmem, hall⟩ := roleKeys_eq_ok hroles
  refine ⟨fun kind id ↦ ?_, hall⟩
  simp only [List.mem_append, List.mem_map, List.mem_filterMap, PolicySubject.mk.injEq]
  cases kind with
  | group => simp [subjectNames, subjectColumn, denotes]
  | role =>
    simp only [reduceCtorEq, false_and, and_false, exists_false, true_and, false_or, or_false]
    exact exists_eq_right.trans (hmem id)
  | user => simp [subjectNames, subjectColumn, denotes]

theorem policyInput_eq_ok {data : PolicyInput} (h : policyInput env w orgId raw = .ok data) :
    SubjectsRead env w orgId raw data.subjects ∧
      ∃ approverRoles, roleKeys env w orgId "approverRoles" (list env (raw.get "approverRoles")) =
          .ok approverRoles ∧
        data = {
          name := str (raw.get "name")
          description := text (raw.get "description")
          effect := env.toUpperCase ((text (raw.get "effect")).getD "ALLOW")
          targetEnvironments := (list env (raw.get "targetEnvironments")).map (lowerText env)
          allowedPrincipals := list env (raw.get "allowedPrincipals")
          maxSessionDuration := (int (raw.get "maxSessionDuration")).getD 3600
          requireApproval := bool env (raw.get "requireApproval")
          autoApprove := bool env (raw.get "autoApprove")
          priority := (int (raw.get "priority")).getD 100
          allowKeyDownload := bool env (raw.get "allowKeyDownload")
          approverGroupId := approverGroup env w orgId raw
          approverRoles, subjects := data.subjects } := by
  simp only [policyInput, bind_eq_ok, pure_eq_ok] at h
  obtain ⟨subjects, hsubjects, approverRoles, hroles, rfl⟩ := h
  exact ⟨policySubjects_eq_ok hsubjects, approverRoles, hroles, rfl⟩

theorem saysSubjects_iff {kind : SubjectType} {p : PolicyRow} {subjects : List PolicySubject}
    (hread : SubjectsRead env w job.orgId row.raw subjects) (hp : p.subjects = subjects.eraseDups) :
    SaysSubjects env w job.orgId row.raw kind p ↔ AllDenote env job row w kind := by
  have hmem : ∀ id, ⟨kind, id⟩ ∈ p.subjects ↔
      ∃ name ∈ subjectNames env row.raw kind, denotes env w job.orgId kind name = some id := by
    intro id
    rw [hp, List.mem_eraseDups]
    exact hread.named kind id
  constructor
  · intro h name hname
    obtain ⟨id, hid, -⟩ := h.1 name hname
    rw [hid]
    rfl
  · intro h
    refine ⟨fun name hname ↦ ?_, fun id hid ↦ (hmem id).mp hid⟩
    obtain ⟨id, hid⟩ := Option.isSome_iff_exists.mp (h name hname)
    exact ⟨id, hid, (hmem id).mpr ⟨name, hname, hid⟩⟩

theorem saysApprover_iff {p : PolicyRow}
    (hp : p.approverGroupId = truthy (approverGroup env w job.orgId row.raw)) :
    SaysApprover env w job.orgId row.raw p ↔ ApproverDenotes env job row w := by
  unfold SaysApprover ApproverDenotes
  unfold approverGroup at hp
  cases hname : text (row.raw.get "approverGroup") with
  | none =>
    rw [hname] at hp
    exact iff_of_true hp fun name h ↦ by cases h
  | some name =>
    rw [hname, Option.bind_some] at hp
    constructor
    · rintro ⟨id, hid, -⟩ name' hname'
      obtain rfl := Option.some.inj hname'
      rw [hid]
      rfl
    · intro h
      obtain ⟨id, hid⟩ := Option.isSome_iff_exists.mp (h name rfl)
      refine ⟨id, hid, ?_⟩
      rw [hp, ← hid]
      unfold groupNamed
      rw [truthy_truthy]

/-! ## Policies that are overwritten -/

section

variable {data : PolicyInput} {p : PolicyRow} {effect : PolicyEffect}

/-- After an overwrite the columns that the row leaves out have the defaults. -/
theorem patch_defaults (hdata : policyInput env w job.orgId row.raw = .ok data)
    (heffect : effects.lookup data.effect = some effect) :
    Defaults env row (p.patch data effect) := by
  obtain ⟨hread, approverRoles, hroles, hfields⟩ := policyInput_eq_ok hdata
  have hblank : ∀ {column}, row.raw.omits [column] = true →
      isBlank (row.raw.get column) = true := fun h ↦ Raw.omits_singleton h
  constructor
  · intro h
    rw [hfields, text_of_isBlank (hblank h)] at heffect
    exact heffect
  · intro h
    show data.targetEnvironments = []
    rw [hfields, list_of_isBlank (hblank h)]
    rfl
  · intro h
    show data.allowedPrincipals = []
    rw [hfields, list_of_isBlank (hblank h)]
  · intro h
    show data.maxSessionDuration = 3600
    rw [hfields, int_of_isBlank (hblank h)]
    rfl
  · intro h
    show data.requireApproval = false
    rw [hfields, bool_of_isBlank (hblank h)]
  · intro h
    show data.autoApprove = false
    rw [hfields, bool_of_isBlank (hblank h)]
  · intro h
    show data.priority = 100
    rw [hfields, int_of_isBlank (hblank h)]
    rfl
  · intro h
    show data.allowKeyDownload = false
    rw [hfields, bool_of_isBlank (hblank h)]
  · intro h
    show data.approverRoles = []
    rw [list_of_isBlank (hblank h)] at hroles
    rw [hfields]
    exact (Except.ok.inj hroles).symm
  · intro h
    show truthy data.approverGroupId = none
    rw [hfields]
    show truthy (approverGroup env w job.orgId row.raw) = none
    unfold approverGroup
    rw [text_of_isBlank (hblank h)]
    rfl
  · intro kind h id hmem
    obtain ⟨name, hname, -⟩ := (hread.named kind id).mp (List.mem_eraseDups.mp hmem)
    unfold subjectNames at hname
    rw [list_of_isBlank (hblank h)] at hname
    cases hname

/-- What an overwrite keeps is what was the default before. -/
theorem keptPolicy_iff (hdata : policyInput env w job.orgId row.raw = .ok data)
    (heffect : effects.lookup data.effect = some effect) :
    KeptPolicy row p (p.patch data effect) ↔ Defaults env row p := by
  have hpatch : Defaults env row (p.patch data effect) := patch_defaults hdata heffect
  constructor
  · rintro ⟨hcolumns, hkept, happrover⟩
    constructor
    · intro h
      rw [← hcolumns.effect h]
      exact hpatch.effect h
    · intro h
      rw [← hcolumns.targetEnvironments h]
      exact hpatch.targetEnvironments h
    · intro h
      rw [← hcolumns.allowedPrincipals h]
      exact hpatch.allowedPrincipals h
    · intro h
      rw [← hcolumns.maxSessionDuration h]
      exact hpatch.maxSessionDuration h
    · intro h
      rw [← hcolumns.requireApproval h]
      exact hpatch.requireApproval h
    · intro h
      rw [← hcolumns.autoApprove h]
      exact hpatch.autoApprove h
    · intro h
      rw [← hcolumns.priority h]
      exact hpatch.priority h
    · intro h
      rw [← hcolumns.allowKeyDownload h]
      exact hpatch.allowKeyDownload h
    · intro h
      rw [← hcolumns.approverRoles h]
      exact hpatch.approverRoles h
    · intro h
      rw [← happrover h]
      exact hpatch.approver h
    · intro kind h id hmem
      exact hpatch.subjects kind h id ((hkept kind h id).mpr hmem)
  · intro hdefault
    refine ⟨?_, fun kind h id ↦ ?_, fun h ↦ (hpatch.approver h).trans (hdefault.approver h).symm⟩
    · constructor
      · intro h
        obtain ⟨-, approverRoles, -, hfields⟩ := policyInput_eq_ok hdata
        show data.description.or p.description = p.description
        rw [hfields, text_of_isBlank (Raw.omits_singleton h)]
        rfl
      · intro h
        exact Option.some.inj ((hpatch.effect h).symm.trans (hdefault.effect h))
      · intro h
        exact (hpatch.targetEnvironments h).trans (hdefault.targetEnvironments h).symm
      · intro h
        exact (hpatch.allowedPrincipals h).trans (hdefault.allowedPrincipals h).symm
      · intro h
        exact (hpatch.maxSessionDuration h).trans (hdefault.maxSessionDuration h).symm
      · intro h
        exact (hpatch.requireApproval h).trans (hdefault.requireApproval h).symm
      · intro h
        exact (hpatch.autoApprove h).trans (hdefault.autoApprove h).symm
      · intro h
        exact (hpatch.priority h).trans (hdefault.priority h).symm
      · intro h
        exact (hpatch.allowKeyDownload h).trans (hdefault.allowKeyDownload h).symm
      · intro h
        exact (hpatch.approverRoles h).trans (hdefault.approverRoles h).symm
      · exact ⟨rfl, rfl, rfl, rfl, rfl, rfl, rfl, rfl, rfl⟩
    · exact iff_of_false (hpatch.subjects kind h id) (hdefault.subjects kind h id)

theorem saysPolicy_patch_iff (hdata : policyInput env w job.orgId row.raw = .ok data)
    {p' : PolicyRow} (hsubjects : p'.subjects = data.subjects.eraseDups)
    (happrover : p'.approverGroupId = truthy data.approverGroupId) :
    SaysPolicy env job row w p' ↔
      (∀ kind, AllDenote env job row w kind) ∧ ApproverDenotes env job row w := by
  obtain ⟨hread, approverRoles, -, hfields⟩ := policyInput_eq_ok hdata
  rw [hfields] at happrover
  have hiff : ∀ kind, SaysSubjects env w job.orgId row.raw kind p' ↔ AllDenote env job row w kind :=
    fun kind ↦ saysSubjects_iff hread hsubjects
  have hiff' : SaysApprover env w job.orgId row.raw p' ↔ ApproverDenotes env job row w :=
    saysApprover_iff happrover
  constructor
  · rintro ⟨hs, ha⟩
    refine ⟨fun kind ↦ ?_, ?_⟩
    · -- A column that is left out names nothing.
      by_cases homit : row.raw.omits [subjectColumn kind] = true
      · intro name hname
        unfold subjectNames at hname
        rw [list_of_isBlank (Raw.omits_singleton homit)] at hname
        cases hname
      · exact (hiff kind).mp (hs kind fun _ _ ↦ homit)
    · by_cases homit : row.raw.omits ["approverGroup"] = true
      · intro name hname
        rw [text_of_isBlank (Raw.omits_singleton homit)] at hname
        cases hname
      · exact hiff'.mp (ha fun _ _ ↦ homit)
  · rintro ⟨hs, ha⟩
    exact ⟨fun kind _ ↦ (hiff kind).mpr (hs kind), fun _ ↦ hiff'.mpr ha⟩

end

/-! ## Policy rows -/

section

variable {data : PolicyInput} {imported : Prop}

theorem PolicyRow.Kept.refl (p : PolicyRow) : p.Kept raw p :=
  ⟨fun _ ↦ rfl, fun _ ↦ rfl, fun _ ↦ rfl, fun _ ↦ rfl, fun _ ↦ rfl, fun _ ↦ rfl, fun _ ↦ rfl,
    fun _ ↦ rfl, fun _ ↦ rfl, fun _ ↦ rfl, rfl, rfl, rfl, rfl, rfl, rfl, rfl, rfl, rfl⟩

theorem find_of_policyNamed {p : PolicyRow} {name : String}
    (h : w.db.policyNamed orgId name = some p) :
    w.db.policies.find p.id = some p ∧ p.orgId = orgId ∧ p.name = name := by
  have hq := List.find?_some h
  exact ⟨Keyed.find_key (List.mem_of_find?_eq_some h), of_decide_eq_true hq⟩

theorem policy_faithful_of_failed (hentity : row.entity = .policy) (himported : ¬ imported)
    (h : v.db.policies = w.db.policies) : Faithful env job row w v imported := by
  unfold Faithful
  rw [hentity]
  refine ⟨fun hi ↦ absurd hi himported, fun _ p hp ↦ ⟨p, ?_, .refl p, fun _ _ _ ↦ Iff.rfl,
    fun _ ↦ rfl⟩⟩
  rw [h]
  exact (find_of_policyNamed hp).1

/-- A policy row that was imported is faithful just when it is plain. -/
theorem policy_faithful_iff (hentity : row.entity = .policy) (himported : imported)
    (hdata : policyInput env w job.orgId row.raw = .ok data)
    (hsaved : PolicySaved w job.orgId data row.overwrites v.db.policies) :
    Faithful env job row w v imported ↔ PlainPolicy env job row w := by
  have hname : data.name = str (row.raw.get "name") := by
    obtain ⟨-, approverRoles, -, hfields⟩ := policyInput_eq_ok hdata
    exact congrArg PolicyInput.name hfields
  have hbefore : policyBefore job row w = w.db.policyNamed job.orgId data.name := by
    rw [hname]
    rfl
  unfold Faithful PlainPolicy
  rw [hentity, hbefore]
  dsimp only
  have hafter : policyBefore job row v = v.db.policyNamed job.orgId data.name := by
    rw [hname]
    rfl
  rw [hafter]
  unfold Db.policyNamed
  generalize v.db.policies = policies at hsaved ⊢
  cases hsaved with
  | @created p hp hnone horg hpname hsubjects happrover =>
    rw [show w.db.policies.rows.find? _ = none from hnone]
    have hfound : (w.db.policies.insert p hp).rows.find?
        (fun q ↦ q.orgId = job.orgId ∧ q.name = data.name) = some p := by
      show (w.db.policies.rows ++ [p]).find? _ = some p
      have hno : w.db.policies.rows.find?
          (fun q ↦ q.orgId = job.orgId ∧ q.name = data.name) = none := hnone
      rw [List.find?_append, hno, Option.none_or]
      exact List.find?_cons_of_pos (decide_eq_true ⟨horg, hpname⟩)
    have hsaid := saysPolicy_patch_iff hdata hsubjects happrover
    constructor
    · rintro ⟨h, -⟩
      obtain ⟨p', hp', hp''⟩ := h himported
      obtain rfl := Option.some.inj (hfound.symm.trans hp')
      exact hsaid.mp hp''
    · intro h
      exact ⟨fun _ ↦ ⟨p, hfound, hsaid.mpr h⟩, fun _ q hq ↦ by cases hq⟩
  | @overwritten p effect hp hover heffect =>
    obtain ⟨hfind, horg, hpname⟩ := find_of_policyNamed hp
    rw [show w.db.policies.rows.find? _ = some p from hp, hover]
    dsimp only
    rw [if_pos rfl]
    have hfound : (w.db.policies.change p.id (.patch data effect)).rows.find?
        (fun q ↦ q.orgId = job.orgId ∧ q.name = data.name) = some (p.patch data effect) := by
      refine find?_change ?_ rfl rfl hp
      show decide (p.orgId = job.orgId ∧ data.name = data.name) =
        decide (p.orgId = job.orgId ∧ p.name = data.name)
      rw [hpname]
    have hchanged : (w.db.policies.change p.id (.patch data effect)).find p.id =
        some (p.patch data effect) := by
      have hkey : ∀ q : PolicyRow, (q.patch data effect).id = q.id := fun _ ↦ rfl
      rw [Keyed.find_change hkey, if_pos rfl, hfind]
      rfl
    have hsaid : SaysPolicy env job row w (p.patch data effect) ↔ _ :=
      saysPolicy_patch_iff hdata rfl rfl
    have hkept : KeptPolicy row p (p.patch data effect) ↔ _ := keptPolicy_iff hdata heffect
    constructor
    · rintro ⟨h, h'⟩
      obtain ⟨p', hp', hp''⟩ := h himported
      obtain rfl := Option.some.inj (hfound.symm.trans hp')
      obtain ⟨p', hp', hkeeps⟩ := h' rfl p rfl
      obtain rfl := Option.some.inj (hchanged.symm.trans hp')
      exact ⟨(hsaid.mp hp'').1, (hsaid.mp hp'').2, hkept.mp hkeeps⟩
    · rintro ⟨hall, happrover, hdefault⟩
      refine ⟨fun _ ↦ ⟨_, hfound, hsaid.mpr ⟨hall, happrover⟩⟩, fun _ q hq ↦ ?_⟩
      obtain rfl := Option.some.inj hq
      exact ⟨_, hchanged, hkept.mpr hdefault⟩
  | @there p hp hover =>
    have hfound : w.db.policies.rows.find?
        (fun q ↦ q.orgId = job.orgId ∧ q.name = data.name) = some p := hp
    rw [hfound, hover]
    dsimp only
    rw [if_neg (by decide)]
    constructor
    · rintro ⟨h, -⟩
      obtain ⟨p', hp', hp''⟩ := h himported
      exact Option.some.inj hp' ▸ hp''
    · intro h
      exact ⟨fun _ ↦ ⟨p, rfl, h⟩, fun hf ↦ by cases hf⟩

end

end Shellius.Import
