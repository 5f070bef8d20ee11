import Shellius.Lib.Pool
import Shellius.Directory.Sync

/-!
# The last active super admin

Whether an organization keeps an active super admin when users are created,
edited, deleted and suspended by a directory sync.  `updateUser` and the sync ask
whether another *active* super admin remains; `deleteUser` and `softDeleteSelf` ask
whether another super admin remains that is not deleted, who may be invited,
suspended or deactivated.  The organization keeps one just when their count would
have been right too.
-/

namespace Shellius

open Lib

/-! ## Runs -/

/-- A change of the users of an organization. -/
inductive UserCall where
  | createUser (data : UserData) (actor : Option Actor) (callerScope : Scope) (id : Id)
  | updateUser (userId : Id) (data : UserData) (actor : Option Actor)
  | deleteUser (userId : Id) (reassignReportsTo : Option Id) (actor : Option Actor)
  | softDeleteSelf (userId : Id) (now : Millis)
  | runSync (row : DirectorySync) (reading : Except String Directory) (clock : RunClock)
      (runId : Id)

/-- The store after a call.  A call that is refused changes nothing and is no step;
`updateUser` may fail after it has moved somebody between groups.  The identities and
findings of a user who is deleted go with them. -/
def changeUsers (rules : TextRules) (orgId : Id) (s : SyncStore) : UserCall → Option SyncStore
  | .createUser data actor callerScope id =>
    (createUser rules s.tables orgId data actor callerScope id).toOption.map fun tables ↦
      { s with tables }
  | .updateUser userId data actor =>
    some { s with tables := (updateUser rules s.tables orgId userId data actor).1 }
  | .deleteUser userId reassignReportsTo actor =>
    (deleteUser s.tables orgId userId reassignReportsTo actor).toOption.map fun tables ↦
      { s with
        tables
        identities := s.identities.filter fun i ↦ i.userId ≠ userId
        findings := s.findings.filter fun f ↦ f.userId ≠ userId }
  | .softDeleteSelf userId now =>
    (softDeleteSelf s.tables orgId userId now).toOption.map fun tables ↦ { s with tables }
  | .runSync row reading clock runId =>
    if row.orgId = orgId then some (runSync s row reading clock runId) else none

def HasSuperAdmin (orgId : Id) (t : Tenancy) : Prop :=
  ∃ u ∈ t.users, isActiveSuperAdmin orgId u = true

instance (orgId : Id) (t : Tenancy) : Decidable (HasSuperAdmin orgId t) :=
  inferInstanceAs (Decidable (∃ u ∈ t.users.rows, _))

/-- A call that deletes a user passes the guard of `updateUser`: there is an active
super admin besides the user. -/
def PassesGuard (orgId : Id) (t : Tenancy) : UserCall → Prop
  | .deleteUser userId _ _ | .softDeleteSelf userId _ => activeSuperAdminCount t orgId userId ≠ 0
  | _ => True

instance (orgId : Id) (t : Tenancy) : (e : UserCall) → Decidable (PassesGuard orgId t e)
  | .deleteUser userId _ _ | .softDeleteSelf userId _ =>
    inferInstanceAs (Decidable (activeSuperAdminCount t orgId userId ≠ 0))
  | .createUser _ _ _ _ | .updateUser _ _ _ | .runSync _ _ _ _ => .isTrue trivial

/-! ## What a call does to super admins -/

section

variable {rules : TextRules} {t t' : Tenancy} {orgId userId : Id} {data : UserData}
  {actor : Option Actor}

theorem createUser_hasSuperAdmin {callerScope : Scope} {id : Id}
    (h : createUser rules t orgId data actor callerScope id = .ok t')
    (h₀ : HasSuperAdmin orgId t) : HasSuperAdmin orgId t' := by
  obtain ⟨-, u, hu, -, -, -, -, -, -, -, rfl⟩ := createUser_eq_ok h
  obtain ⟨v, hv, hactive⟩ := h₀
  exact ⟨v, (Keyed.mem_insert hu).mpr (.inl hv), hactive⟩

theorem hasSuperAdmin_edit_of_ne {edit : UserEdit} {v : ScopedUser} (hv : v ∈ t.users)
    (hactive : isActiveSuperAdmin orgId v = true) (hne : v.id ≠ userId) :
    ∃ u ∈ t.users.update (editUser userId edit) editUser_id, isActiveSuperAdmin orgId u = true := by
  refine ⟨v, (Keyed.mem_update editUser_id).mpr ⟨v, hv, ?_⟩, hactive⟩
  rw [editUser, if_neg hne]

theorem editUser_hasSuperAdmin {edit : UserEdit} (h₀ : HasSuperAdmin orgId t)
    (hedit : checkUpdate rules t orgId userId data actor = .ok edit) :
    ∃ u ∈ t.users.update (editUser userId edit) editUser_id, isActiveSuperAdmin orgId u = true := by
  obtain ⟨existing, hexisting, -, hrole, hstatus⟩ := checkUpdate_eq_ok hedit
  obtain ⟨hmem, hid, -⟩ := Tenancy.user_eq_some.mp hexisting
  obtain ⟨v, hv, hactive⟩ := h₀
  by_cases hne : v.id = userId
  · obtain rfl : v = existing := Keyed.ext hv hmem (hne.trans hid.symm)
    obtain ⟨horg, hsuper, hstat, hdel⟩ := of_decide_eq_true hactive
    have hother : activeSuperAdminCount t orgId v.id ≠ 0 →
        ∃ u ∈ t.users.update (editUser userId edit) editUser_id,
          isActiveSuperAdmin orgId u = true := by
      intro hcount
      obtain ⟨w, hw, hactive', hne'⟩ := activeSuperAdminCount_ne_zero.mp hcount
      exact hasSuperAdmin_edit_of_ne hw hactive' (hne ▸ hne')
    -- the edit takes the tier, or the status, or neither
    by_cases htier : ∃ r ∈ edit.role, r.baseRole ≠ .superAdmin
    · obtain ⟨r, hr, hbase⟩ := htier
      exact hother ((hrole r hr).2.2 hsuper hstat hbase)
    · by_cases hnew : ∃ st, edit.status = some st
      · obtain ⟨st, hst⟩ := hnew
        exact hother (hstatus st hst hsuper hstat)
      · refine ⟨edit.apply v, (Keyed.mem_update editUser_id).mpr ⟨v, hv, ?_⟩, ?_⟩
        · rw [editUser, if_pos hne]
        · have hkeeps : (edit.role.map fun r ↦ r.baseRole).getD v.role = .superAdmin := by
            cases hr : edit.role with
            | none => exact hsuper
            | some r => exact not_not.mp fun hbase ↦ htier ⟨r, hr, hbase⟩
          have hstays : edit.status.getD v.status = .active := by
            cases hst : edit.status with
            | none => exact hstat
            | some st => exact absurd ⟨st, hst⟩ hnew
          exact decide_eq_true ⟨horg, hkeeps, hstays, hdel⟩
  · exact hasSuperAdmin_edit_of_ne hv hactive hne

theorem updateUser_hasSuperAdmin (h₀ : HasSuperAdmin orgId t) :
    HasSuperAdmin orgId (updateUser rules t orgId userId data actor).1 := by
  have hcases : (updateUser rules t orgId userId data actor).1 = t ∨ _ := updateUser_cases
  rcases hcases with hsame | ⟨edit, t₁, hedit, hgroups, hdone⟩
  · rw [hsame]
    exact h₀
  · have husers : t₁.users = t.users := by
      rcases applyGroupMembership_eq_ok hgroups with ⟨-, rfl⟩ | ⟨groups, -, rfl⟩ <;> rfl
    rcases hdone with hdone | hdone
    · rw [hdone, HasSuperAdmin, husers]
      exact h₀
    · rw [hdone, HasSuperAdmin]
      dsimp only
      rw [husers]
      exact editUser_hasSuperAdmin h₀ hedit

theorem deleteUser_hasSuperAdmin_iff {reassignReportsTo : Option Id}
    (h : deleteUser t orgId userId reassignReportsTo actor = .ok t') :
    HasSuperAdmin orgId t' ↔ activeSuperAdminCount t orgId userId ≠ 0 := by
  simp only [deleteUser, bind_eq_ok, pure_eq_ok] at h
  obtain ⟨-, -, ⟨⟩, -, ⟨⟩, -, ⟨⟩, -, rfl⟩ := h
  rw [activeSuperAdminCount_ne_zero]
  constructor
  · rintro ⟨u', hu', hactive⟩
    obtain ⟨u, hu, rfl⟩ := (Keyed.mem_update dropManager_id).mp hu'
    obtain ⟨hu, hne⟩ := Keyed.mem_filter.mp hu
    exact ⟨u, hu, hactive, of_decide_eq_true hne⟩
  · rintro ⟨u, hu, hactive, hne⟩
    exact ⟨dropManager orgId userId _ u, (Keyed.mem_update dropManager_id).mpr
      ⟨u, Keyed.mem_filter.mpr ⟨hu, decide_eq_true hne⟩, rfl⟩, hactive⟩

theorem softDeleteSelf_hasSuperAdmin_iff {now : Millis}
    (h : softDeleteSelf t orgId userId now = .ok t') :
    HasSuperAdmin orgId t' ↔ activeSuperAdminCount t orgId userId ≠ 0 := by
  simp only [softDeleteSelf, bind_eq_ok, pure_eq_ok] at h
  obtain ⟨-, -, ⟨⟩, -, ⟨⟩, -, rfl⟩ := h
  rw [activeSuperAdminCount_ne_zero]
  constructor
  · rintro ⟨u', hu', hactive⟩
    obtain ⟨u, hu, rfl⟩ := (Keyed.mem_update softDeleted_id).mp hu'
    obtain ⟨horg, hsuper, hstat, hdel⟩ := of_decide_eq_true hactive
    dsimp only [softDeleted] at hstat hdel
    have hne : u.id ≠ userId := by
      intro hid
      rw [if_pos hid] at hdel
      exact Option.some_ne_none _ hdel
    rw [if_neg hne] at hstat hdel
    exact ⟨u, hu, decide_eq_true ⟨horg, hsuper, hstat, hdel⟩, hne⟩
  · rintro ⟨u, hu, hactive, hne⟩
    refine ⟨u, (Keyed.mem_update softDeleted_id).mpr ⟨u, hu, ?_⟩, hactive⟩
    rw [softDeleted, if_neg hne, if_neg hne]

theorem runSync_hasSuperAdmin {s : SyncStore} {row : DirectorySync}
    {reading : Except String Directory} {clock : RunClock} {runId : Id}
    (h₀ : HasSuperAdmin row.orgId s.tables) :
    HasSuperAdmin row.orgId (runSync s row reading clock runId).tables := by
  rcases runSync_cases s row reading clock runId with ⟨-, -, -, hsame⟩ |
    ⟨d, run, ids, -, -, -, hdone⟩
  · rw [hsame]
    exact h₀
  · obtain ⟨v, hv, hactive⟩ := h₀
    by_cases hid : v.id ∈ ids
    · exact hdone.superAdmin ⟨v, hv, hid, (of_decide_eq_true hactive).2.1⟩
    · rw [hdone.tables]
      refine ⟨v, mem_suspend.mpr ⟨v, hv, ?_⟩, hactive⟩
      rw [suspendUser, if_neg hid]

end

theorem changeUsers_hasSuperAdmin_iff {rules : TextRules} {orgId : Id} {s s' : SyncStore}
    {e : UserCall} (h₀ : HasSuperAdmin orgId s.tables)
    (h : changeUsers rules orgId s e = some s') :
    HasSuperAdmin orgId s'.tables ↔ PassesGuard orgId s.tables e := by
  cases e with
  | createUser data actor callerScope id =>
    obtain ⟨tables, htables, rfl⟩ := Option.map_eq_some_iff.mp h
    exact iff_of_true (createUser_hasSuperAdmin (toOption_eq_some.mp htables) h₀) trivial
  | updateUser userId data actor =>
    obtain rfl := Option.some.inj h
    exact iff_of_true (updateUser_hasSuperAdmin h₀) trivial
  | deleteUser userId reassignReportsTo actor =>
    obtain ⟨tables, htables, rfl⟩ := Option.map_eq_some_iff.mp h
    exact deleteUser_hasSuperAdmin_iff (toOption_eq_some.mp htables)
  | softDeleteSelf userId now =>
    obtain ⟨tables, htables, rfl⟩ := Option.map_eq_some_iff.mp h
    exact softDeleteSelf_hasSuperAdmin_iff (toOption_eq_some.mp htables)
  | runSync row reading clock runId =>
    rw [changeUsers] at h
    split at h
    · rename_i horg
      obtain rfl := Option.some.inj h
      subst horg
      exact iff_of_true (runSync_hasSuperAdmin h₀) trivial
    · cases h

/-- In every run of calls on an organization with an active super admin, there is one
after each call just when each call passes the guard. -/
theorem run_hasSuperAdmin_iff {rules : TextRules} {orgId : Id} {s s' : SyncStore}
    {es : List UserCall} (h₀ : HasSuperAdmin orgId s.tables) :
    Run (changeUsers rules orgId) (fun _ _ t ↦ HasSuperAdmin orgId t.tables) s es s' ↔
      Run (changeUsers rules orgId) (fun t e _ ↦ PassesGuard orgId t.tables e) s es s' := by
  constructor
  · intro h
    refine h.mono_of_invariant (I := fun t ↦ HasSuperAdmin orgId t.tables) h₀ ?_
    intro t e u hI hstep hkept
    exact ⟨hkept, (changeUsers_hasSuperAdmin_iff hI hstep).mp hkept⟩
  · intro h
    refine h.mono_of_invariant (I := fun t ↦ HasSuperAdmin orgId t.tables) h₀ ?_
    intro t e u hI hstep hguard
    have hkept := (changeUsers_hasSuperAdmin_iff hI hstep).mpr hguard
    exact ⟨hkept, hkept⟩

/-! ## An invitation is not a super admin -/

def twoAdmins (status : UserStatus) : SyncStore where
  tables := { users := {
    rows :=
      [{ id := "u1", orgId := "o1", email := "ana@x", name := "Ana", role := .superAdmin },
       { id := "u2", orgId := "o1", email := "bob@x", name := "Bob", role := .superAdmin, status }]
    nodup := by simp } }

theorem run_hasSuperAdmin_iff_two : ∃ s',
    Run (changeUsers plainText "o1") (fun _ _ t ↦ HasSuperAdmin "o1" t.tables) (twoAdmins .active)
      [.softDeleteSelf "u1" 0] s' :=
  ⟨_, (run_hasSuperAdmin_iff (by decide)).mpr (.single rfl (by decide))⟩

/-- Ana leaves Bob behind, who never accepted the invitation. -/
theorem invitedAdmin_remains : ∃ s',
    HasSuperAdmin "o1" (twoAdmins .invited).tables ∧
    Run (changeUsers plainText "o1") free (twoAdmins .invited) [.softDeleteSelf "u1" 0] s' ∧
    ¬ HasSuperAdmin "o1" s'.tables :=
  ⟨_, by decide, .single rfl trivial, by decide⟩

end Shellius
