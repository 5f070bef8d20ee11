import Shellius.Lib.Delegation
import Shellius.Lib.Pool
import Shellius.Users.Accounts

/-!
# No role escalation

Role and user management by actors whose permissions are those of their own
rows.  Every call hands out only what the actor holds, with one exception that
`createUser` makes on purpose: a new user gets the built-in member role whoever
the actor is.  So the member role counts among the holders of permissions, and
a run delegates from the actors and from it.
-/

namespace Shellius

open Lib

/-! ## Runs -/

inductive RoleCall where
  | createRole (actor : Actor) (data : RoleData) (id : Id)
  | updateRole (actor : Actor) (id : Id) (data : RoleData)
  | deleteRole (actor : Actor) (id : Id) (reassignToRoleId : Option Id)
  | createUser (actor : Actor) (data : UserData) (callerScope : Scope) (id : Id)
  | updateUser (actor : Actor) (userId : Id) (data : UserData)

def RoleCall.actor : RoleCall → Actor
  | .createRole actor _ _ | .updateRole actor _ _ | .deleteRole actor _ _
  | .createUser actor _ _ _ | .updateUser actor _ _ => actor

/-- The tables after a call.  A call that is refused changes nothing and is no
step; `updateUser` may fail after it has moved the user between groups. -/
def administer (rules : TextRules) (orgId : Id) (t : Tenancy) : RoleCall → Option Tenancy
  | .createRole actor data id => (createRole rules t orgId actor data id).toOption
  | .updateRole actor id data => (updateRole rules t orgId actor id data).toOption
  | .deleteRole actor id ref => (deleteRole t orgId actor id ref).toOption
  | .createUser actor data callerScope id =>
    (createUser rules t orgId data (some actor) callerScope id).toOption
  | .updateUser actor userId data => some (updateUser rules t orgId userId data (some actor)).1

/-- The actor is a user of the organization, with their tier and role and with
permissions of theirs. -/
def ActsAs (t : Tenancy) (orgId : Id) (actor : Actor) : Prop :=
  ∃ u ∈ t.users, u.id = actor.userId ∧ u.orgId = orgId ∧ u.roleId = actor.roleId ∧
    u.role = actor.tier ∧ actor.permissions ⊆ t.permissionsOf u

instance (t : Tenancy) (orgId : Id) (actor : Actor) : Decidable (ActsAs t orgId actor) :=
  inferInstanceAs (Decidable (∃ u ∈ t.users.rows, _))

/-! ## What the actors may hand out -/

def WithinReach (actor : Actor) (r : NamedRole) : Prop :=
  permissionsOfRole r.toRole ⊆ actor.permissions ∧ tierRank r.baseRole ≤ tierRank actor.tier

/-- A step hands out only roles within the actor's reach: every role row that is
new or changed is, and so is the role of every user who is new or has another
role than before, unless the user is new and has the built-in member role. -/
structure Sanctioned (orgId : Id) (actor : Actor) (t t' : Tenancy) : Prop where
  roles : ∀ r ∈ t'.roles, r ∈ t.roles ∨ WithinReach actor r
  users : ∀ u' ∈ t'.users,
    (∃ u ∈ t.users, u.id = u'.id ∧ u.roleId = u'.roleId ∧
      (u.role = u'.role ∨ tierRank u'.role ≤ tierRank actor.tier)) ∨
    ∃ r ∈ t'.roles, u'.roleId = some r.id ∧ u'.role = r.baseRole ∧
      (WithinReach actor r ∨
        (∀ u ∈ t.users, u.id ≠ u'.id) ∧ getSystemRole t orgId .member = some r)

inductive Holder where
  | user (id : Id)
  | memberRole

def holdings (orgId : Id) (t : Tenancy) : Holder → Set String
  | .user id => {p | ∃ u ∈ t.users, u.id = id ∧ p ∈ t.permissionsOf u}
  | .memberRole => {p | ∃ r, getSystemRole t orgId .member = some r ∧ p ∈ permissionsOfRole r.toRole}

/-- The holders a call of the actor takes permissions from. -/
def sources (actor : Actor) : Set Holder := {.user actor.userId, .memberRole}

section

variable {rules : TextRules} {t t' : Tenancy} {orgId : Id} {actor : Actor}

theorem ActsAs.permissions_subset (h : ActsAs t orgId actor) {p : String}
    (hp : p ∈ actor.permissions) : p ∈ held (holdings orgId t) (sources actor) := by
  obtain ⟨u, hu, hid, -, -, -, hsub⟩ := h
  exact mem_held.mpr ⟨.user actor.userId, .inl rfl, u, hu, hid, hsub hp⟩

theorem mem_held_of_member {r : NamedRole} (h : getSystemRole t orgId .member = some r)
    {p : String} (hp : p ∈ permissionsOfRole r.toRole) :
    p ∈ held (holdings orgId t) (sources actor) :=
  mem_held.mpr ⟨.memberRole, .inr rfl, r, h, hp⟩

theorem permissionsOf_eq {u : ScopedUser} {r : NamedRole} (hr : r ∈ t.roles)
    (h : u.roleId = some r.id) : t.permissionsOf u = permissionsOfRole r.toRole := by
  rw [Tenancy.permissionsOf, Tenancy.assignedRole, h, Option.bind_some, Keyed.find_key hr]
  rfl

theorem permissionsOf_congr {u u' : ScopedUser} (hrole : u'.roleId = u.roleId)
    (hfind : ∀ id ∈ u.roleId, t'.roles.find id = t.roles.find id)
    (htier : t.assignedRole u = none → u'.role = u.role) :
    t'.permissionsOf u' = t.permissionsOf u := by
  have hassigned : t'.assignedRole u' = t.assignedRole u := by
    rw [Tenancy.assignedRole, Tenancy.assignedRole, hrole]
    cases hid : u.roleId with
    | none => rfl
    | some id => exact hfind id hid
  rw [Tenancy.permissionsOf, Tenancy.permissionsOf, hassigned]
  cases ha : t.assignedRole u with
  | none => rw [htier ha]
  | some r => rfl

theorem delegates_of (hact : ActsAs t orgId actor)
    (husers : ∀ u' ∈ t'.users,
      (∃ u ∈ t.users, u.id = u'.id ∧ t'.permissionsOf u' = t.permissionsOf u) ∨
      t'.permissionsOf u' ⊆ actor.permissions ∨
      ∃ r, getSystemRole t orgId .member = some r ∧
        t'.permissionsOf u' = permissionsOfRole r.toRole)
    (hmember : ∀ r', getSystemRole t' orgId .member = some r' →
      getSystemRole t orgId .member = some r' ∨
      permissionsOfRole r'.toRole ⊆ actor.permissions) :
    Delegates (sources actor) (holdings orgId t) (holdings orgId t') := by
  intro h p hp
  cases h with
  | user id =>
    obtain ⟨u', hu', hid, hp⟩ := hp
    rcases husers u' hu' with ⟨u, hu, hsame, hperms⟩ | hsub | ⟨r, hr, hperms⟩
    · exact .inl ⟨u, hu, hsame.trans hid, hperms ▸ hp⟩
    · exact .inr (hact.permissions_subset (hsub hp))
    · exact .inr (mem_held_of_member hr (hperms ▸ hp))
  | memberRole =>
    obtain ⟨r', hr', hp⟩ := hp
    rcases hmember r' hr' with hr | hsub
    · exact .inl ⟨r', hr, hp⟩
    · exact .inr (hact.permissions_subset (hsub hp))

/-! ## One call -/

variable {id userId : Id}

theorem createRole_sanctioned {data : RoleData} (hact : ActsAs t orgId actor)
    (h : createRole rules t orgId actor data id = .ok t') :
    Sanctioned orgId actor t t' ∧
      Delegates (sources actor) (holdings orgId t) (holdings orgId t') := by
  obtain ⟨r, hr, rfl, hid, -, hsystem, -, hperms, htier⟩ := createRole_eq_ok h
  refine ⟨⟨?_, fun u hu ↦ .inl ⟨u, hu, rfl, rfl, .inl rfl⟩⟩, delegates_of hact ?_ ?_⟩
  · intro r' hr'
    obtain hr' | rfl := (Keyed.mem_insert hr).mp hr'
    · exact .inl hr'
    · exact .inr ⟨hperms, htier⟩
  · intro u hu
    by_cases hnew : u.roleId = some r.id
    · right; left
      have hin : r ∈ t.roles.insert r hr := (Keyed.mem_insert hr).mpr (.inr rfl)
      have hroles : Tenancy.permissionsOf { t with roles := t.roles.insert r hr } u =
          permissionsOfRole r.toRole := permissionsOf_eq hin hnew
      rw [hroles]
      exact hperms
    · refine .inl ⟨u, hu, rfl, permissionsOf_congr rfl (fun id hid ↦ ?_) fun _ ↦ rfl⟩
      exact Keyed.find_insert_of_ne hr fun he ↦ hnew (he ▸ hid)
  · intro r' hr'
    rw [getSystemRole_insert hsystem] at hr'
    exact .inl hr'

theorem editRole_cases {edit : RoleEdit} {role r : NamedRole} (hrole : role ∈ t.roles)
    (hid : role.id = id) (hr : r ∈ t.roles) :
    editRole id edit r = r ∨ editRole id edit r = edit.apply role := by
  by_cases he : r.id = id
  · obtain rfl : r = role := Keyed.ext hr hrole (he.trans hid.symm)
    exact .inr (if_pos he)
  · exact .inl (if_neg he)

theorem users_applyRoleEdit_cases {edit : RoleEdit} {role : NamedRole} {u' : ScopedUser}
    (htier : tierRank (edit.apply role).baseRole ≤ tierRank actor.tier)
    (hu' : u' ∈ (applyRoleEdit t orgId id edit).users) :
    ∃ u ∈ t.users, u.id = u'.id ∧ u.roleId = u'.roleId ∧ (u.role = u'.role ∨
      u.roleId = some id ∧ tierRank u'.role ≤ tierRank actor.tier) := by
  rw [users_applyRoleEdit] at hu'
  cases hbase : edit.baseRole with
  | none =>
    rw [hbase] at hu'
    exact ⟨u', hu', rfl, rfl, .inl rfl⟩
  | some baseRole =>
    rw [hbase] at hu'
    obtain ⟨u, hu, rfl⟩ := (Keyed.mem_update retier_id).mp hu'
    refine ⟨u, hu, rfl, rfl, ?_⟩
    have htier : tierRank baseRole ≤ tierRank actor.tier := by
      rw [RoleEdit.apply, hbase] at htier
      exact htier
    simp only [retier]
    split
    · rename_i hu
      exact .inr ⟨hu.2, htier⟩
    · exact .inl rfl

theorem updateRole_sanctioned {data : RoleData} (hact : ActsAs t orgId actor)
    (h : updateRole rules t orgId actor id data = .ok t') :
    Sanctioned orgId actor t t' ∧
      Delegates (sources actor) (holdings orgId t) (holdings orgId t') := by
  obtain ⟨role, edit, hrole, rfl, -, -, hperms, htier⟩ := updateRole_eq_ok h
  obtain ⟨hmem, hid, -⟩ := Tenancy.role_eq_some.mp hrole
  refine ⟨⟨?_, fun u' hu' ↦ ?_⟩, delegates_of hact ?_ ?_⟩
  · intro r' hr'
    obtain ⟨r, hr, rfl⟩ := (Keyed.mem_update editRole_id).mp hr'
    rcases editRole_cases hmem hid hr with he | he
    · rw [he]
      exact .inl hr
    · rw [he]
      exact .inr ⟨hperms, htier⟩
  · obtain ⟨u, hu, hsame, hroleId, htier'⟩ := users_applyRoleEdit_cases htier hu'
    exact .inl ⟨u, hu, hsame, hroleId, htier'.imp_right And.right⟩
  · intro u' hu'
    obtain ⟨u, hu, hsame, hroleId, htier'⟩ := users_applyRoleEdit_cases htier hu'
    by_cases he : u.roleId = some id
    · right; left
      have hin : edit.apply role ∈ (applyRoleEdit t orgId id edit).roles :=
        (Keyed.mem_update editRole_id).mpr ⟨role, hmem, if_pos hid⟩
      have happly : (edit.apply role).id = id := hid
      rw [permissionsOf_eq hin (by rw [← hroleId, he, happly])]
      exact hperms
    · refine .inl ⟨u, hu, hsame, permissionsOf_congr hroleId.symm (fun j hj ↦ ?_) fun _ ↦ ?_⟩
      · have hne : j ≠ id := fun hji ↦ he (hji ▸ hj)
        rw [applyRoleEdit, Keyed.find_update]
        cases hf : t.roles.find j with
        | none => rfl
        | some r => rw [Option.map_some, editRole, if_neg (Keyed.key_of_find hf ▸ hne)]
      · rcases htier' with htier' | ⟨hu, -⟩
        · exact htier'.symm
        · exact absurd hu he
  · intro r' hr'
    rw [getSystemRole_applyRoleEdit] at hr'
    obtain ⟨r, hr, rfl⟩ := Option.map_eq_some_iff.mp hr'
    rcases editRole_cases hmem hid (getSystemRole_spec hr).1 with he | he
    · rw [he]
      exact .inl hr
    · rw [he]
      exact .inr hperms

theorem deleteRole_sanctioned {ref : Option Id} (hact : ActsAs t orgId actor)
    (h : deleteRole t orgId actor id ref = .ok t') :
    Sanctioned orgId actor t t' ∧
      Delegates (sources actor) (holdings orgId t) (holdings orgId t') := by
  obtain ⟨role, target, hrole, hsystem, htarget, hleft, ht'⟩ := deleteRole_eq_ok h
  have hroles : t'.roles = t.roles.filter fun r ↦ r.id ≠ id := by rw [ht']
  have husers : t'.users = usersMoved t orgId id target := by rw [ht']
  have hreach : ∀ r ∈ target, r ∈ t'.roles ∧ WithinReach actor r := by
    intro r hr
    obtain ⟨hmem, hne, hcan⟩ := htarget r hr
    obtain ⟨hperms, htier, -⟩ := canActOnRole_spec hcan
    rw [hroles, Keyed.mem_filter]
    exact ⟨⟨hmem, by simpa using hne⟩, hperms, htier⟩
  -- a user either stays as they are or moves to the target
  have hmoved : ∀ u' ∈ t'.users, u' ∈ t.users ∨ ∃ u ∈ t.users, u.id = u'.id ∧
      ∃ r ∈ target, u'.roleId = some r.id ∧ u'.role = r.baseRole := by
    intro u' hu'
    rw [husers] at hu'
    cases target with
    | none => exact .inl hu'
    | some r =>
      obtain ⟨u, hu, rfl⟩ := mem_usersMoved.mp hu'
      by_cases hmoves : u.orgId = orgId ∧ u.roleId = some id
      · exact .inr ⟨u, hu, rfl, r, rfl, if_pos hmoves, if_pos hmoves⟩
      · have hstays : moveToRole orgId id r u = u := by simp only [moveToRole, if_neg hmoves]
        rw [hstays]
        exact .inl hu
  refine ⟨⟨fun r hr ↦ ?_, fun u' hu' ↦ ?_⟩, delegates_of hact ?_ ?_⟩
  · rw [hroles, Keyed.mem_filter] at hr
    exact .inl hr.1
  · rcases hmoved u' hu' with hu | ⟨u, hu, hsame, r, hr, hroleId, hbase⟩
    · exact .inl ⟨u', hu, rfl, rfl, .inl rfl⟩
    · obtain ⟨hmem, hwithin⟩ := hreach r hr
      exact .inr ⟨r, hmem, hroleId, hbase, .inl hwithin⟩
  · intro u' hu'
    rcases hmoved u' hu' with hu | ⟨u, hu, hsame, r, hr, hroleId, -⟩
    · refine .inl ⟨u', hu, rfl, permissionsOf_congr rfl (fun j hj ↦ ?_) fun _ ↦ rfl⟩
      have hne : j ≠ id := fun hji ↦ hleft u' (husers ▸ hu') (hji ▸ hj)
      rw [hroles, Keyed.find_filter]
      cases hf : t.roles.find j with
      | none => rfl
      | some r => simp [Option.filter, Keyed.key_of_find hf, hne]
    · right; left
      obtain ⟨hmem, hperms, -⟩ := hreach r hr
      rw [permissionsOf_eq hmem hroleId]
      exact hperms
  · intro r' hr'
    rw [getSystemRole_delete hrole hsystem hroles] at hr'
    exact .inl hr'

theorem createUser_sanctioned {data : UserData} {callerScope : Scope} (hact : ActsAs t orgId actor)
    (h : createUser rules t orgId data (some actor) callerScope id = .ok t') :
    Sanctioned orgId actor t t' ∧
      Delegates (sources actor) (holdings orgId t) (holdings orgId t') := by
  obtain ⟨role, u, hu, customerIds, groups, hrole, -, -, hroleId, hbase, rfl⟩ := createUser_eq_ok h
  obtain ⟨hmem, -, hreach⟩ := roleForNewUser_eq_ok hrole
  have hreach : getSystemRole t orgId .member = some role ∨ WithinReach actor role := by
    refine (hreach actor rfl).imp_right fun hcan ↦ ?_
    obtain ⟨hperms, htier, -⟩ := canActOnRole_spec hcan
    exact ⟨hperms, htier⟩
  refine ⟨⟨fun r hr ↦ .inl hr, fun u' hu' ↦ ?_⟩, delegates_of hact ?_ fun r' hr' ↦ .inl hr'⟩
  · obtain hu' | rfl := (Keyed.mem_insert hu).mp hu'
    · exact .inl ⟨u', hu', rfl, rfl, .inl rfl⟩
    · exact .inr ⟨role, hmem, hroleId, hbase, hreach.symm.imp_right fun hm ↦ ⟨hu, hm⟩⟩
  · intro u' hu'
    obtain hu' | rfl := (Keyed.mem_insert hu).mp hu'
    · exact .inl ⟨u', hu', rfl, rfl⟩
    · have hperms : Tenancy.permissionsOf { t with users := t.users.insert u' hu } u' =
          permissionsOfRole role.toRole := permissionsOf_eq hmem hroleId
      rcases hreach with hm | hwithin
      · exact .inr (.inr ⟨role, hm, hperms⟩)
      · right; left
        exact hperms ▸ hwithin.1

theorem sanctioned_of_roles_eq (hact : ActsAs t orgId actor) (hroles : t'.roles = t.roles)
    (husers : ∀ u' ∈ t'.users,
      (∃ u ∈ t.users, u.id = u'.id ∧ u.roleId = u'.roleId ∧ u.role = u'.role) ∨
      ∃ r ∈ t.roles, u'.roleId = some r.id ∧ u'.role = r.baseRole ∧ WithinReach actor r) :
    Sanctioned orgId actor t t' ∧
      Delegates (sources actor) (holdings orgId t) (holdings orgId t') := by
  refine ⟨⟨fun r hr ↦ .inl (hroles ▸ hr), fun u' hu' ↦ ?_⟩, delegates_of hact ?_ ?_⟩
  · rcases husers u' hu' with ⟨u, hu, hid, hroleId, hrole⟩ | ⟨r, hr, hroleId, hbase, hreach⟩
    · exact .inl ⟨u, hu, hid, hroleId, .inl hrole⟩
    · exact .inr ⟨r, hroles ▸ hr, hroleId, hbase, .inl hreach⟩
  · intro u' hu'
    rcases husers u' hu' with ⟨u, hu, hid, hroleId, hrole⟩ | ⟨r, hr, hroleId, -, hreach⟩
    · refine .inl ⟨u, hu, hid, permissionsOf_congr hroleId.symm (fun j _ ↦ ?_) fun _ ↦ hrole.symm⟩
      rw [hroles]
    · right; left
      rw [permissionsOf_eq (hroles ▸ hr) hroleId]
      exact hreach.1
  · intro r' hr'
    rw [getSystemRole, hroles] at hr'
    exact .inl hr'

theorem updateUser_sanctioned {data : UserData} (hact : ActsAs t orgId actor)
    (h : (updateUser rules t orgId userId data (some actor)).1 = t') :
    Sanctioned orgId actor t t' ∧
      Delegates (sources actor) (holdings orgId t) (holdings orgId t') := by
  have hsame : ∀ u ∈ t.users, ∃ u' ∈ t.users, u'.id = u.id ∧ u'.roleId = u.roleId ∧
      u'.role = u.role := fun u hu ↦ ⟨u, hu, rfl, rfl, rfl⟩
  rcases updateUser_cases with hc | ⟨edit, t₁, hcheck, happly, hc⟩
  · obtain rfl : t = t' := hc.symm.trans h
    exact sanctioned_of_roles_eq hact rfl fun u hu ↦ .inl (hsame u hu)
  · have ht₁ : t₁.roles = t.roles ∧ t₁.users = t.users := by
      rcases applyGroupMembership_eq_ok happly with ⟨-, rfl⟩ | ⟨groups, -, rfl⟩ <;> exact ⟨rfl, rfl⟩
    rcases hc with hc | hc
    · obtain rfl : t₁ = t' := hc.symm.trans h
      exact sanctioned_of_roles_eq hact ht₁.1 fun u hu ↦ .inl (hsame u (ht₁.2 ▸ hu))
    · obtain rfl := hc.symm.trans h
      refine sanctioned_of_roles_eq hact ht₁.1 fun u' hu' ↦ ?_
      obtain ⟨u, hu, rfl⟩ := (Keyed.mem_update editUser_id).mp hu'
      rw [ht₁.2] at hu
      obtain ⟨existing, -, -, hrole, -⟩ := checkUpdate_eq_ok hcheck
      unfold editUser
      split
      · cases he : edit.role with
        | none => exact .inl ⟨u, hu, rfl, by simp [UserEdit.apply, he], by simp [UserEdit.apply, he]⟩
        | some r =>
          obtain ⟨hmem, hcan, -⟩ := hrole r he
          obtain ⟨hperms, htier, -⟩ := canActOnRole_spec (hcan actor rfl)
          exact .inr ⟨r, hmem, by simp [UserEdit.apply, he], by simp [UserEdit.apply, he], hperms,
            htier⟩
      · exact .inl (hsame u hu)

theorem administer_sanctioned {e : RoleCall} (hact : ActsAs t orgId e.actor)
    (h : administer rules orgId t e = some t') :
    Sanctioned orgId e.actor t t' ∧
      Delegates (sources e.actor) (holdings orgId t) (holdings orgId t') := by
  cases e with
  | createRole actor data id => exact createRole_sanctioned hact (toOption_eq_some.mp h)
  | updateRole actor id data => exact updateRole_sanctioned hact (toOption_eq_some.mp h)
  | deleteRole actor id ref => exact deleteRole_sanctioned hact (toOption_eq_some.mp h)
  | createUser actor data callerScope id => exact createUser_sanctioned hact (toOption_eq_some.mp h)
  | updateUser actor userId data => exact updateUser_sanctioned hact (Option.some.inj h)

/-! ## Runs of calls -/

/-- In every run of calls, each made with permissions the actor has then, each
call is authorised, and holders among whom are the actors and the member role
never have more between them than they began with. -/
theorem run_sanctioned {es : List RoleCall}
    (h : Run (administer rules orgId) (fun s e _ ↦ ActsAs s orgId e.actor) t es t') :
    Run (administer rules orgId) (fun s e s' ↦ Sanctioned orgId e.actor s s') t es t' ∧
      ∀ P : Set Holder, .memberRole ∈ P → (∀ e ∈ es, .user e.actor.userId ∈ P) →
        held (holdings orgId t') P ⊆ held (holdings orgId t) P := by
  constructor
  · refine h.mono_of_invariant (I := fun _ ↦ True) trivial fun s e s' _ hs hact ↦ ?_
    exact ⟨trivial, (administer_sanctioned hact hs).1⟩
  · intro P hmember hactors
    have hdelegates : Delegates P (holdings orgId t) (holdings orgId t') := by
      induction h with
      | nil => exact .refl
      | @snoc es s s' e _ hs hact ih =>
        have hstep := (administer_sanctioned hact hs).2
        refine (ih fun e he ↦ hactors e (List.mem_append_left _ he)).trans (hstep.mono ?_)
        rintro x (rfl | rfl)
        · exact hactors e (by simp)
        · exact hmember
    exact hdelegates.held_subset subset_rfl

end

/-! ## An invitation -/

def builtInRole (id : Id) (tier : OrgRole) : NamedRole where
  id := id
  orgId := "o1"
  key := tier.key
  name := tier.key
  baseRole := tier
  permissions := defaultPermissionsFor tier
  isSystem := true

def inviterRole : NamedRole where
  id := "r5"
  orgId := "o1"
  key := "inviter"
  name := "Inviter"
  baseRole := .member
  permissions := ["users.invite"]

def eve : ScopedUser where
  id := "u1"
  orgId := "o1"
  email := "eve@acme.io"
  name := "Eve"
  roleId := some "r5"

def inviteTenancy : Tenancy where
  roles :=
    { rows := [builtInRole "r1" .superAdmin, builtInRole "r2" .admin, builtInRole "r3" .manager,
        builtInRole "r4" .member, inviterRole] }
  users := { rows := [eve] }

def eveActor : Actor where
  userId := "u1"
  roleId := some "r5"
  tier := .member
  permissions := ["users.invite"]

def inviteCall : RoleCall :=
  .createUser eveActor { email := some "bob@acme.io", name := some "Bob" } .unscoped "u2"

theorem eveActor_actsAs : ActsAs inviteTenancy "o1" eveActor := by decide

theorem inviteCall_eq_some :
    (∃ t', administer plainText "o1" inviteTenancy inviteCall = some t' ∧
      ∃ u ∈ t'.users, u.id = "u2" ∧ "servers.view" ∈ t'.permissionsOf u) ∧
    ∀ u ∈ inviteTenancy.users, u.id = "u1" ∧ inviteTenancy.permissionsOf u = ["users.invite"] := by
  have hbob : (administer plainText "o1" inviteTenancy inviteCall).any (fun t' ↦
      decide (∃ u ∈ t'.users.rows, u.id = "u2" ∧ "servers.view" ∈ t'.permissionsOf u)) = true := by
    decide
  have heve : ∀ u ∈ inviteTenancy.users.rows,
      u.id = "u1" ∧ inviteTenancy.permissionsOf u = ["users.invite"] := by decide
  obtain ⟨t', ht', hbob⟩ := (Option.any_eq_true _ _).mp hbob
  exact ⟨⟨t', ht', of_decide_eq_true hbob⟩, heve⟩

theorem run_sanctioned_inviteCall : ∃ t',
    Run (administer plainText "o1") (fun s e s' ↦ Sanctioned "o1" e.actor s s') inviteTenancy
      [inviteCall] t' ∧
    held (holdings "o1" t') {.user "u1", .user "u2", .memberRole} ⊆
      held (holdings "o1" inviteTenancy) {.user "u1", .user "u2", .memberRole} := by
  obtain ⟨⟨t', ht', -⟩, -⟩ := inviteCall_eq_some
  obtain ⟨hsteps, hheld⟩ := run_sanctioned (.single ht' eveActor_actsAs)
  refine ⟨t', hsteps, hheld _ (by simp) ?_⟩
  intro e he
  obtain rfl := List.mem_singleton.mp he
  exact .inl rfl

/-- Bob comes to hold what Eve, who created him, does not, and the two hold more
between them than they did. -/
theorem invite_hands_out_more : ∃ t',
    Run (administer plainText "o1")
      (fun s e _ ↦ ActsAs s "o1" e.actor ∧ e.actor.tier ≠ .superAdmin) inviteTenancy [inviteCall]
      t' ∧
    (∃ u ∈ t'.users, (∀ v ∈ inviteTenancy.users, v.id ≠ u.id) ∧
      ¬ t'.permissionsOf u ⊆ inviteCall.actor.permissions) ∧
    ¬ held (holdings "o1" t') {.user "u1", .user "u2"} ⊆
      held (holdings "o1" inviteTenancy) {.user "u1", .user "u2"} := by
  obtain ⟨⟨t', ht', bob, hbob, hid, hview⟩, heve⟩ := inviteCall_eq_some
  refine ⟨t', .single ht' ⟨eveActor_actsAs, by decide⟩, ⟨bob, hbob, ?_, ?_⟩, fun hsub ↦ ?_⟩
  · intro v hv
    rw [(heve v hv).1, hid]
    decide
  · intro hsub
    exact absurd (hsub hview) (by decide)
  · have hheld : "servers.view" ∈ held (holdings "o1" t') {.user "u1", .user "u2"} :=
      mem_held.mpr ⟨.user "u2", by simp, bob, hbob, hid, hview⟩
    obtain ⟨x, hx, hx'⟩ := mem_held.mp (hsub hheld)
    -- nobody but Eve was there, and she could only invite
    have hnot : ∀ id, "servers.view" ∉ holdings "o1" inviteTenancy (.user id) := by
      rintro id ⟨u, hu, -, hp⟩
      rw [(heve u hu).2] at hp
      exact absurd hp (by decide)
    rcases hx with rfl | rfl
    · exact hnot _ hx'
    · exact hnot _ hx'

end Shellius
