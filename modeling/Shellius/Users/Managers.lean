import Shellius.Lib.Hierarchy
import Shellius.Lib.Pool
import Shellius.Users.Accounts

/-!
# Managers

Who reports to whom when users are created, edited and deleted.  `updateUser` climbs
the chain of the new manager before it sets one, and `createUser` has nobody to fear
below a new user.  `deleteUser` gives the reports of the deleted user to whoever was
named, who may be one of them: the hierarchy survives just when the climb of
`updateUser` would have let the replacement through.
-/

namespace Shellius

open Lib

/-! ## The hierarchy of an organization -/

def Tenancy.managerOf (t : Tenancy) (orgId id : Id) : Option Id :=
  (t.user orgId id).bind fun u ↦ u.managerId

/-- Nobody of the organization is above themselves, and every `managerId` names one
of its users. -/
structure ManagersSound (orgId : Id) (t : Tenancy) : Prop where
  acyclic : Acyclic (t.managerOf orgId)
  named : ∀ u ∈ t.users, u.orgId = orgId → ∀ m, u.managerId = some m →
    ∃ v ∈ t.users, v.id = m ∧ v.orgId = orgId

section

variable {t : Tenancy} {orgId userId id m : Id}

theorem isSome_user : (t.user orgId id).isSome = true ↔
    ∃ v ∈ t.users, v.id = id ∧ v.orgId = orgId := by
  rw [Option.isSome_iff_exists]
  exact exists_congr fun v ↦ Tenancy.user_eq_some

theorem managerOf_eq_some : t.managerOf orgId id = some m ↔
    ∃ u ∈ t.users, u.id = id ∧ u.orgId = orgId ∧ u.managerId = some m := by
  rw [Tenancy.managerOf, Option.bind_eq_some_iff]
  constructor
  · rintro ⟨u, hu, hm⟩
    obtain ⟨hmem, hid, horg⟩ := Tenancy.user_eq_some.mp hu
    exact ⟨u, hmem, hid, horg, hm⟩
  · rintro ⟨u, hmem, hid, horg, hm⟩
    exact ⟨u, Tenancy.user_eq_some.mpr ⟨hmem, hid, horg⟩, hm⟩

/-- The loop of `wouldCreateCycle` climbs the hierarchy. -/
theorem cycleFrom_eq_climb (n : ℕ) (seen : List Id) (current : Option Id) :
    cycleFrom t orgId userId n seen current = climb (t.managerOf orgId) userId n seen current := by
  induction n generalizing seen current with
  | zero => rfl
  | succ n ih =>
    cases current with
    | none => rfl
    | some c =>
      rw [cycleFrom, climb]
      split
      · rfl
      · split
        · rfl
        · cases hu : t.user orgId c with
          | none =>
            have hc : t.managerOf orgId c = none := by rw [Tenancy.managerOf, hu]; rfl
            rw [hc]
            cases n <;> rfl
          | some u =>
            have hc : t.managerOf orgId c = u.managerId := by rw [Tenancy.managerOf, hu]; rfl
            rw [hc]
            exact ih _ _

/-- In a hierarchy `wouldCreateCycle` says whether the user is at or above the new
manager. -/
theorem wouldCreateCycle_iff (h : Acyclic (t.managerOf orgId)) :
    wouldCreateCycle t orgId userId m = true ↔ AtOrAbove (t.managerOf orgId) m userId := by
  have hdom : ∀ a b, t.managerOf orgId a = some b → a ∈ t.users.rows.map fun u ↦ u.id := by
    intro a b hab
    obtain ⟨u, hu, rfl, -⟩ := managerOf_eq_some.mp hab
    exact List.mem_map_of_mem hu
  rw [wouldCreateCycle, cycleFrom_eq_climb,
    climb_iff h hdom List.nodup_nil (List.nil_subset _) (by simp) (by simp)]
  simp

end

/-! ## One call -/

section

variable {rules : TextRules} {t t' : Tenancy} {orgId userId id : Id} {data : UserData}
  {actor : Option Actor} {callerScope : Scope} {reassignReportsTo : Option Id}

theorem ManagersSound.congr (h : ManagersSound orgId t) (husers : t'.users = t.users) :
    ManagersSound orgId t' := by
  have hmanager : t'.managerOf orgId = t.managerOf orgId := by
    funext a
    rw [Tenancy.managerOf, Tenancy.user, husers]
    rfl
  constructor
  · rw [hmanager]
    exact h.acyclic
  · rw [husers]
    exact h.named

theorem createUser_users (h : createUser rules t orgId data actor callerScope id = .ok t') :
    ∃ (u : ScopedUser) (hu : ∀ v ∈ t.users, v.id ≠ u.id), t'.users = t.users.insert u hu ∧
      u.id = id ∧ u.orgId = orgId ∧
      ∀ m, u.managerId = some m → ∃ v ∈ t.users, v.id = m ∧ v.orgId = orgId := by
  simp only [createUser, bind_eq_ok, demand_eq_ok, require_eq_ok, pure_eq_ok] at h
  obtain ⟨email, -, name, -, role, -, ⟨⟩, hmanager, customerIds, -, groups, -, -, -, users, husers,
    rfl⟩ := h
  obtain ⟨hu, rfl⟩ := Keyed.insert?_eq_some.mp husers
  refine ⟨_, hu, rfl, rfl, rfl, ?_⟩
  intro m hm
  have hm : truthy data.managerId.join = some m := hm
  rw [checkManager, hm] at hmanager
  exact isSome_user.mp (require_eq_ok.mp hmanager)

theorem createUser_managersSound (hs : ManagersSound orgId t)
    (h : createUser rules t orgId data actor callerScope id = .ok t') :
    ManagersSound orgId t' := by
  obtain ⟨u, hu, husers, rfl, horg, hmanager⟩ := createUser_users h
  have hmem : ∀ v, v ∈ t'.users ↔ v ∈ t.users ∨ v = u := by
    intro v
    rw [husers]
    exact Keyed.mem_insert hu
  -- nobody reports to the new user
  have hfree : ∀ a, t.managerOf orgId a ≠ some u.id := by
    intro a ha
    obtain ⟨v, hv, -, hvorg, hm⟩ := managerOf_eq_some.mp ha
    obtain ⟨w, hw, hid, -⟩ := hs.named v hv hvorg _ hm
    exact hu w hw hid
  have hold : ∀ a b, a ≠ u.id → t'.managerOf orgId a = some b → t.managerOf orgId a = some b := by
    intro a b hne hab
    obtain ⟨v, hv, rfl, hvorg, hm⟩ := managerOf_eq_some.mp hab
    rcases (hmem v).mp hv with hv | rfl
    · exact managerOf_eq_some.mpr ⟨v, hv, rfl, hvorg, hm⟩
    · exact absurd rfl hne
  have hnew : ∀ b, t'.managerOf orgId u.id = some b → u.managerId = some b := by
    intro b hb
    obtain ⟨v, hv, hid, -, hm⟩ := managerOf_eq_some.mp hb
    rcases (hmem v).mp hv with hv | rfl
    · exact absurd hid (hu v hv)
    · exact hm
  constructor
  · cases hm : u.managerId with
    | none =>
      refine hs.acyclic.mono fun a b hab ↦ hold a b ?_ hab
      rintro rfl
      rw [hnew b hab] at hm
      cases hm
    | some m =>
      obtain ⟨v, hv, hid, -⟩ := hmanager m hm
      have hbelow : ¬ AtOrAbove (t.managerOf orgId) m u.id := fun hup ↦
        hu v hv (hid.trans (hup.eq_of_notNextAbove hfree))
      refine (hs.acyclic.update hbelow).mono fun a b hab ↦ ?_
      by_cases hne : a = u.id
      · subst hne
        rw [Function.update_self, ← hm]
        exact hnew b hab
      · rw [Function.update_of_ne hne]
        exact hold a b hne hab
  · intro v hv hvorg m hm
    have hthere : ∃ w ∈ t.users, w.id = m ∧ w.orgId = orgId := by
      rcases (hmem v).mp hv with hv | rfl
      · exact hs.named v hv hvorg m hm
      · exact hmanager m hm
    obtain ⟨w, hw, hwid, hworg⟩ := hthere
    exact ⟨w, (hmem w).mpr (.inl hw), hwid, hworg⟩

/-- A manager that passes the checks of `updateUser` is there and not below the
user. -/
theorem checkNewManager_eq_ok {isSelf : Bool} {existing : ScopedUser}
    {asked edited : Option (Option Id)}
    (h : checkNewManager t orgId actor isSelf existing asked = .ok edited) :
    ∀ m, edited = some (some m) →
      (∃ v ∈ t.users, v.id = m ∧ v.orgId = orgId) ∧ wouldCreateCycle t orgId existing.id m = false := by
  rintro m rfl
  cases asked with
  | none => cases Except.ok.inj h
  | some managerId =>
    unfold checkNewManager at h
    cases managerId with
    | none =>
      dsimp only at h
      split at h
      · cases pure_eq_ok.mp h
      · split at h
        · cases pure_eq_ok.mp h
        · obtain ⟨-, -, h⟩ := bind_eq_ok.mp h
          cases pure_eq_ok.mp h
    | some m' =>
      dsimp only at h
      simp only [bind_eq_ok, require_eq_ok] at h
      obtain ⟨-, -, -, hthere, -, hcycle, h⟩ := h
      have hasked : m' = m := by
        split at h
        · cases pure_eq_ok.mp h
        · split at h
          · exact Option.some.inj (Option.some.inj (pure_eq_ok.mp h))
          · obtain ⟨-, -, h⟩ := bind_eq_ok.mp h
            exact Option.some.inj (Option.some.inj (pure_eq_ok.mp h))
      subst hasked
      exact ⟨isSome_user.mp hthere, by simpa using hcycle⟩

theorem checkUpdate_manager {edit : UserEdit}
    (h : checkUpdate rules t orgId userId data actor = .ok edit) :
    (t.user orgId userId).isSome = true ∧ ∀ m, edit.managerId = some (some m) →
      (∃ v ∈ t.users, v.id = m ∧ v.orgId = orgId) ∧ wouldCreateCycle t orgId userId m = false := by
  simp only [checkUpdate, bind_eq_ok, demand_eq_ok, require_eq_ok, pure_eq_ok] at h
  obtain ⟨existing, hexisting, -, -, -, -, -, -, name, -, email, -, role, -, status, -, managerId,
    hmanager, rfl⟩ := h
  obtain ⟨-, rfl, -⟩ := Tenancy.user_eq_some.mp hexisting
  exact ⟨Option.isSome_iff_exists.mpr ⟨_, hexisting⟩, checkNewManager_eq_ok hmanager⟩

theorem managerOf_editUser {edit : UserEdit} {a b : Id}
    (husers : t'.users = t.users.update (editUser userId edit) editUser_id)
    (h : t'.managerOf orgId a = some b) :
    t.managerOf orgId a = some b ∨ a = userId ∧ edit.managerId = some (some b) := by
  obtain ⟨v, hv, rfl, hvorg, hm⟩ := managerOf_eq_some.mp h
  rw [husers] at hv
  obtain ⟨u, hu, rfl⟩ := (Keyed.mem_update editUser_id).mp hv
  rw [editUser] at hvorg hm
  by_cases hid : u.id = userId
  · rw [if_pos hid] at hvorg hm
    cases hedit : edit.managerId with
    | none =>
      rw [UserEdit.apply, hedit] at hm
      exact .inl (managerOf_eq_some.mpr ⟨u, hu, (editUser_id u).symm, hvorg, hm⟩)
    | some manager =>
      rw [UserEdit.apply, hedit] at hm
      have hm : manager = some b := hm
      exact .inr ⟨(editUser_id u).trans hid, by rw [hm]⟩
  · rw [if_neg hid] at hvorg hm
    exact .inl (managerOf_eq_some.mpr ⟨u, hu, (editUser_id u).symm, hvorg, hm⟩)

theorem editUser_managersSound {edit : UserEdit} (hs : ManagersSound orgId t)
    (hcheck : checkUpdate rules t orgId userId data actor = .ok edit)
    (husers : t'.users = t.users.update (editUser userId edit) editUser_id) :
    ManagersSound orgId t' := by
  obtain ⟨-, hmanager⟩ := checkUpdate_manager hcheck
  constructor
  · by_cases hset : ∃ m, edit.managerId = some (some m)
    · obtain ⟨m, hm⟩ := hset
      have hbelow : ¬ AtOrAbove (t.managerOf orgId) m userId := by
        rw [← wouldCreateCycle_iff hs.acyclic, (hmanager m hm).2]
        exact Bool.false_ne_true
      refine (hs.acyclic.update hbelow).mono fun a b hab ↦ ?_
      by_cases ha : a = userId
      · subst ha
        rw [Function.update_self]
        rcases managerOf_editUser husers hab with hab' | ⟨-, hb⟩
        · -- the link of the user was set anew, so it is the one asked for
          obtain ⟨v, hv, hid, -, hvm⟩ := managerOf_eq_some.mp hab
          rw [husers] at hv
          obtain ⟨u, hu, rfl⟩ := (Keyed.mem_update editUser_id).mp hv
          rw [editUser, if_pos ((editUser_id u).symm.trans hid), UserEdit.apply, hm] at hvm
          exact hvm
        · exact Option.some.inj (hm.symm.trans hb)
      · rw [Function.update_of_ne ha]
        exact (managerOf_editUser husers hab).resolve_right fun hr ↦ ha hr.1
    · refine hs.acyclic.mono fun a b hab ↦ ?_
      exact (managerOf_editUser husers hab).resolve_right fun hr ↦ hset ⟨b, hr.2⟩
  · intro v hv hvorg m hm
    have hlink : t'.managerOf orgId v.id = some m :=
      managerOf_eq_some.mpr ⟨v, hv, rfl, hvorg, hm⟩
    have hthere : ∃ w ∈ t.users, w.id = m ∧ w.orgId = orgId := by
      rcases managerOf_editUser husers hlink with hold | ⟨-, hnew⟩
      · obtain ⟨u, hu, -, huorg, hum⟩ := managerOf_eq_some.mp hold
        exact hs.named u hu huorg m hum
      · exact (hmanager m hnew).1
    obtain ⟨w, hw, hwid, hworg⟩ := hthere
    refine ⟨editUser userId edit w, ?_, (editUser_id w).trans hwid, ?_⟩
    · rw [husers]
      exact (Keyed.mem_update editUser_id).mpr ⟨w, hw, rfl⟩
    · rw [editUser]
      split <;> exact hworg

theorem updateUser_managersSound (hs : ManagersSound orgId t) :
    ManagersSound orgId (updateUser rules t orgId userId data actor).1 := by
  have hcases : (updateUser rules t orgId userId data actor).1 = t ∨ _ := updateUser_cases
  rcases hcases with hsame | ⟨edit, t₁, hcheck, happly, hdone⟩
  · rw [hsame]
    exact hs
  · have husers : t₁.users = t.users := by
      rcases applyGroupMembership_eq_ok happly with ⟨-, rfl⟩ | ⟨groups, -, rfl⟩ <;> rfl
    rcases hdone with hdone | hdone
    · rw [hdone]
      exact hs.congr husers
    · rw [hdone]
      refine editUser_managersSound hs hcheck ?_
      dsimp only
      rw [husers]

/-! ### Deleting a user -/

theorem deleteUser_eq_ok (h : deleteUser t orgId userId reassignReportsTo actor = .ok t') :
    t' = removeUser t orgId userId (truthy reassignReportsTo) ∧
      ∀ r, truthy reassignReportsTo = some r →
        r ≠ userId ∧ ∃ v ∈ t.users, v.id = r ∧ v.orgId = orgId := by
  simp only [deleteUser, bind_eq_ok, pure_eq_ok] at h
  obtain ⟨existing, -, -, -, -, -, ⟨⟩, hcheck, rfl⟩ := h
  refine ⟨rfl, fun r hr ↦ ?_⟩
  unfold checkReassignTo at hcheck
  rw [hr] at hcheck
  simp only [bind_eq_ok, require_eq_ok] at hcheck
  obtain ⟨-, hne, hthere⟩ := hcheck
  obtain ⟨v, hv, -⟩ := (Option.any_eq_true _ _).mp hthere
  exact ⟨hne, v, Tenancy.user_eq_some.mp hv⟩

theorem managerOf_removeUser (r : Option Id) :
    (removeUser t orgId userId r).managerOf orgId = rehang (t.managerOf orgId) userId r := by
  funext a
  have hfind : (removeUser t orgId userId r).user orgId a =
      if a = userId then none else (t.user orgId a).map (dropManager orgId userId r) := by
    rw [Tenancy.user, Tenancy.user, removeUser]
    dsimp only
    rw [Keyed.find_update, Keyed.find_filter]
    cases hu : t.users.find a with
    | none => simp
    | some u =>
      have hid : u.id = a := (Keyed.key_of_find hu :)
      by_cases ha : a = userId
      · simp [Option.filter, hid, ha]
      · by_cases horg : u.orgId = orgId <;> simp [Option.filter, hid, ha, horg, dropManager]
  rw [rehang, Tenancy.managerOf, hfind]
  by_cases ha : a = userId
  · rw [if_pos ha, if_pos ha]
    rfl
  · rw [if_neg ha, if_neg ha, Tenancy.managerOf]
    cases hu : t.user orgId a with
    | none => rfl
    | some u =>
      obtain ⟨-, -, horg⟩ := Tenancy.user_eq_some.mp hu
      simp only [Option.map_some, Option.bind_some, dropManager, horg, if_true]

theorem removeUser_named {r : Option Id} (hs : ManagersSound orgId t)
    (hr : ∀ m, r = some m → m ≠ userId ∧ ∃ v ∈ t.users, v.id = m ∧ v.orgId = orgId) :
    ∀ u ∈ (removeUser t orgId userId r).users, u.orgId = orgId → ∀ m, u.managerId = some m →
      ∃ v ∈ (removeUser t orgId userId r).users, v.id = m ∧ v.orgId = orgId := by
  intro u' hu' horg m hm
  obtain ⟨u, hu, rfl⟩ := (Keyed.mem_update dropManager_id).mp hu'
  obtain ⟨hu, -⟩ := Keyed.mem_filter.mp hu
  have hthere : m ≠ userId ∧ ∃ v ∈ t.users, v.id = m ∧ v.orgId = orgId := by
    by_cases hmanager : u.managerId = some userId
    · have horg' : u.orgId = orgId := horg
      rw [dropManager, if_pos hmanager, if_pos horg'] at hm
      exact hr m hm
    · rw [dropManager, if_neg hmanager] at hm
      refine ⟨?_, hs.named u hu horg m hm⟩
      rintro rfl
      exact hmanager hm
  obtain ⟨hne, v, hv, hid, hvorg⟩ := hthere
  refine ⟨dropManager orgId userId r v, (Keyed.mem_update dropManager_id).mpr ⟨v, ?_, rfl⟩, hid,
    hvorg⟩
  exact Keyed.mem_filter.mpr ⟨hv, decide_eq_true (hid ▸ hne)⟩

/-- A deletion leaves a hierarchy just when the replacement passes the check of
`updateUser`. -/
theorem deleteUser_managersSound_iff (hs : ManagersSound orgId t)
    (h : deleteUser t orgId userId reassignReportsTo actor = .ok t') :
    ManagersSound orgId t' ↔
      ∀ r, truthy reassignReportsTo = some r → wouldCreateCycle t orgId userId r = false := by
  obtain ⟨rfl, hchecked⟩ := deleteUser_eq_ok h
  have hnamed := removeUser_named hs hchecked
  cases hr : truthy reassignReportsTo with
  | none =>
    refine iff_of_true ⟨?_, hr ▸ hnamed⟩ (by simp)
    rw [managerOf_removeUser]
    exact hs.acyclic.mono fun a b ↦ rehang_none_le
  | some r =>
    obtain ⟨hne, -⟩ := hchecked r hr
    have hcycle : wouldCreateCycle t orgId userId r = false ↔
        ¬ IsAbove (t.managerOf orgId) r userId := by
      rw [← Bool.not_eq_true, wouldCreateCycle_iff hs.acyclic, AtOrAbove,
        Relation.reflTransGen_iff_eq_or_transGen]
      simp [hne.symm]
    have hacyclic : Acyclic ((removeUser t orgId userId (some r)).managerOf orgId) ↔
        wouldCreateCycle t orgId userId r = false := by
      rw [managerOf_removeUser, hcycle, acyclic_rehang_iff hs.acyclic]
    constructor
    · rintro hs' _ ⟨⟩
      exact hacyclic.mp hs'.acyclic
    · intro hpass
      exact ⟨hacyclic.mpr (hpass r rfl), hr ▸ hnamed⟩

end

/-! ## Runs of calls -/

/-- A call that changes who reports to whom. -/
inductive ManagerCall where
  | createUser (data : UserData) (actor : Option Actor) (callerScope : Scope) (id : Id)
  | updateUser (userId : Id) (data : UserData) (actor : Option Actor)
  | deleteUser (userId : Id) (reassignReportsTo : Option Id) (actor : Option Actor)

/-- The tables after a call.  A call that is refused changes nothing and is no step;
`updateUser` may fail after it has moved somebody between groups. -/
def changeManagers (rules : TextRules) (orgId : Id) (t : Tenancy) : ManagerCall → Option Tenancy
  | .createUser data actor callerScope id =>
    (createUser rules t orgId data actor callerScope id).toOption
  | .updateUser userId data actor => some (updateUser rules t orgId userId data actor).1
  | .deleteUser userId reassignReportsTo actor =>
    (deleteUser t orgId userId reassignReportsTo actor).toOption

/-- A call that deletes a user names nobody below them to take over their reports. -/
def ReassignsUpwards (orgId : Id) (t : Tenancy) : ManagerCall → Prop
  | .deleteUser userId reassignReportsTo _ =>
    ∀ r ∈ truthy reassignReportsTo, wouldCreateCycle t orgId userId r = false
  | _ => True

instance (orgId : Id) (t : Tenancy) : (e : ManagerCall) → Decidable (ReassignsUpwards orgId t e)
  | .deleteUser _ reassignReportsTo _ =>
    inferInstanceAs (Decidable (∀ r ∈ truthy reassignReportsTo, _ = false))
  | .createUser _ _ _ _ | .updateUser _ _ _ => .isTrue trivial

theorem changeManagers_sound_iff {rules : TextRules} {orgId : Id} {t t' : Tenancy}
    {e : ManagerCall} (hs : ManagersSound orgId t)
    (h : changeManagers rules orgId t e = some t') :
    ManagersSound orgId t' ↔ ReassignsUpwards orgId t e := by
  cases e with
  | createUser data actor callerScope id =>
    exact iff_of_true (createUser_managersSound hs (toOption_eq_some.mp h)) trivial
  | updateUser userId data actor =>
    obtain rfl := Option.some.inj h
    exact iff_of_true (updateUser_managersSound hs) trivial
  | deleteUser userId reassignReportsTo actor =>
    exact deleteUser_managersSound_iff hs (toOption_eq_some.mp h)

/-- In every run of calls on an organization whose managers are sound, they are so
after each call just when no call hands the reports of a deleted user to somebody
below that user. -/
theorem run_managersSound_iff {rules : TextRules} {orgId : Id} {t t' : Tenancy}
    {es : List ManagerCall} (h₀ : ManagersSound orgId t) :
    Run (changeManagers rules orgId) (fun _ _ s ↦ ManagersSound orgId s) t es t' ↔
      Run (changeManagers rules orgId) (fun s e _ ↦ ReassignsUpwards orgId s e) t es t' := by
  constructor
  · intro hrun
    refine hrun.mono_of_invariant (I := ManagersSound orgId) h₀ ?_
    intro s e s' hs hstep hkept
    exact ⟨hkept, (changeManagers_sound_iff hs hstep).mp hkept⟩
  · intro hrun
    refine hrun.mono_of_invariant (I := ManagersSound orgId) h₀ ?_
    intro s e s' hs hstep hup
    have hkept := (changeManagers_sound_iff hs hstep).mpr hup
    exact ⟨hkept, hkept⟩

/-! ## A report takes over -/

def chainOfThree : Tenancy where
  users := { rows :=
    [{ id := "ana", orgId := "o1", email := "ana@x", name := "Ana" },
     { id := "bea", orgId := "o1", email := "bea@x", name := "Bea", managerId := some "ana" },
     { id := "cy", orgId := "o1", email := "cy@x", name := "Cy", managerId := some "bea" }] }

theorem chainOfThree_sound : ManagersSound "o1" chainOfThree where
  acyclic := by
    have hup : ∀ a b, chainOfThree.managerOf "o1" a = some b →
        a = "bea" ∧ b = "ana" ∨ a = "cy" ∧ b = "bea" := by
      intro a b hab
      obtain ⟨u, hu, rfl, -, hm⟩ := managerOf_eq_some.mp hab
      have hu : u ∈ chainOfThree.users.rows := hu
      simp only [chainOfThree, List.mem_cons, List.not_mem_nil, or_false] at hu
      rcases hu with rfl | rfl | rfl
      · cases hm
      · exact .inl ⟨rfl, (Option.some.inj hm).symm⟩
      · exact .inr ⟨rfl, (Option.some.inj hm).symm⟩
    have htop : ∀ b, ¬ IsAbove (chainOfThree.managerOf "o1") "ana" b := by
      intro b hb
      obtain ⟨c, hc, -⟩ := Relation.TransGen.head'_iff.mp hb
      rcases hup _ _ hc with ⟨h, -⟩ | ⟨h, -⟩ <;> simp at h
    intro a ha
    obtain ⟨b, hab, hba⟩ := Relation.TransGen.head'_iff.mp ha
    rcases hup a b hab with ⟨rfl, rfl⟩ | ⟨rfl, rfl⟩
    · rcases Relation.reflTransGen_iff_eq_or_transGen.mp hba with h | h
      · simp at h
      · exact htop _ h
    · rcases Relation.ReflTransGen.cases_head hba with h | ⟨c, hc, hca⟩
      · simp at h
      · rcases hup _ _ hc with ⟨-, rfl⟩ | ⟨h, -⟩
        · rcases Relation.reflTransGen_iff_eq_or_transGen.mp hca with h | h
          · simp at h
          · exact htop _ h
        · simp at h
  named := by decide

def deleteBea (replacement : Id) : ManagerCall :=
  .deleteUser "bea" (some replacement)
    (some { userId := "root", tier := .superAdmin, permissions := ["users.delete"] })

theorem run_managersSound_iff_ana : ∃ t',
    Run (changeManagers plainText "o1") (fun _ _ s ↦ ManagersSound "o1" s) chainOfThree
      [deleteBea "ana"] t' :=
  ⟨_, (run_managersSound_iff chainOfThree_sound).mpr (.single rfl (by decide))⟩

/-- Cy takes over his own place and is his own manager. -/
theorem report_becomes_own_manager : ∃ t',
    ManagersSound "o1" chainOfThree ∧
    Run (changeManagers plainText "o1") free chainOfThree [deleteBea "cy"] t' ∧
    ∃ u ∈ t'.users, u.id = "cy" ∧ u.managerId = some "cy" :=
  ⟨_, chainOfThree_sound, .single rfl trivial, by decide⟩

end Shellius
