import Shellius.Users.OwnScope

/-!
# The scope shown and the scope enforced

`getEffectiveScope` tells an administrator what a user may see, and where that comes
from; `resolveScope` is what every request of the user is held to.  They are written
apart.  Both are shown to be what the rows say: `SeesAll` when the user is not
confined, and the customers they `Sees` otherwise.  Agreement and monotonicity
follow from that.
-/

namespace Shellius

open Lib

/-! ## `getEffectiveScope` -/

/-- The display names of customers and groups, which the tables leave out. -/
structure DisplayNames where
  customer : Id → String
  group : Id → String

/-- A customer as an administrator sees it. -/
structure NamedCustomer where
  id : Id
  name : String

structure GroupSource where
  id : Id
  name : String
  accessScope : AccessScope
  customers : List NamedCustomer

inductive ScopeReason where
  | userAll | groupAll | union | empty

/-- What `getEffectiveScope` returns. -/
structure EffectiveScope where
  kind : AccessScope
  customerIds : List Id
  reason : ScopeReason
  direct : List NamedCustomer
  groups : List GroupSource

def EffectiveScope.toScope (e : EffectiveScope) : Scope :=
  match e.kind with
  | .all => .unscoped
  | .customers => .customers e.customerIds

section

variable (names : DisplayNames) (t : Tenancy)

/-- `include: { customer: true }`: the foreign key names the row. -/
def namedCustomer (customerId : Id) : NamedCustomer := ⟨customerId, names.customer customerId⟩

def directSources (userId : Id) : List NamedCustomer :=
  (t.userCustomerScopes.filter fun s ↦ s.userId = userId).map fun s ↦
    namedCustomer names s.customerId

/-- A group with the customers of its rows. -/
def groupSource (g : ScopedGroup) : GroupSource where
  id := g.id
  name := names.group g.id
  accessScope := g.accessScope
  customers := (t.groupCustomerScopes.filter fun s ↦ s.groupId = g.id).map fun s ↦
    namedCustomer names s.customerId

def groupSources (orgId userId : Id) : List GroupSource :=
  ((t.groupsOf userId).filter fun g ↦ g.orgId = orgId).map (groupSource names t)

def getEffectiveScope (orgId userId : Id) : Except ApiError EffectiveScope := do
  let user ← demand (t.user orgId userId) ⟨404, "User not found", none⟩
  let direct := directSources names t userId
  let groups := groupSources names t orgId userId
  if user.role = .superAdmin ∨ user.accessScope ≠ .customers then
    pure { kind := .all, customerIds := [], reason := .userAll, direct, groups }
  else if groups.any fun g ↦ g.accessScope = .all then
    pure { kind := .all, customerIds := [], reason := .groupAll, direct, groups }
  else
    let customerIds := (direct.map NamedCustomer.id ++
      (groups.filter fun g ↦ g.accessScope = .customers).flatMap fun g ↦
        g.customers.map NamedCustomer.id).eraseDups
    pure { kind := .customers, customerIds
           reason := if customerIds ≠ [] then .union else .empty, direct, groups }

end

/-! ## What the rows say -/

/-- The groups of a user are groups of the user's organization. -/
def Tenancy.MembersLocal (t : Tenancy) : Prop :=
  ∀ u ∈ t.users, ∀ g ∈ t.groups, ⟨g.id, u.id⟩ ∈ t.groupMemberships → g.orgId = u.orgId

instance (t : Tenancy) : Decidable t.MembersLocal :=
  inferInstanceAs (Decidable (∀ u ∈ t.users.rows, ∀ g ∈ t.groups.rows, _ → _))

/-- The user, with these groups, is not confined to customers. -/
def SeesAll (u : ScopedUser) (groups : List ScopedGroup) : Prop :=
  u.role = .superAdmin ∨ u.accessScope = .all ∨ ∃ g ∈ groups, g.accessScope = .all

/-- A row of the user or of one of these groups names the customer. -/
def Sees (t : Tenancy) (u : ScopedUser) (groups : List ScopedGroup) (customerId : Id) : Prop :=
  ⟨u.id, customerId⟩ ∈ t.userCustomerScopes ∨
    ∃ g ∈ groups, ⟨g.id, customerId⟩ ∈ t.groupCustomerScopes

/-- A scope is what the rows say, the user being in these groups. -/
def Scope.Reflects (t : Tenancy) (u : ScopedUser) (groups : List ScopedGroup) : Scope → Prop
  | .unscoped => SeesAll u groups
  | .customers customerIds =>
    ¬ SeesAll u groups ∧ ∀ c, c ∈ customerIds ↔ Sees t u groups c

/-- Two scopes are the same, but for the order of the customers. -/
def Scope.Agrees : Scope → Scope → Prop
  | .unscoped, .unscoped => True
  | .customers customerIds, .customers customerIds' => ∀ c, c ∈ customerIds ↔ c ∈ customerIds'
  | _, _ => False

section

variable {names : DisplayNames} {t t' : Tenancy} {u : ScopedUser} {groups groups' : List ScopedGroup}
  {scope scope' : Scope} {orgId userId c : Id} {e e' : EffectiveScope}

theorem Scope.Reflects.agrees (h : scope.Reflects t u groups) (h' : scope'.Reflects t u groups) :
    scope.Agrees scope' := by
  cases scope with
  | unscoped =>
    cases scope' with
    | unscoped => trivial
    | customers ids' => exact h'.1 h
  | customers ids =>
    cases scope' with
    | unscoped => exact h.1 h'
    | customers ids' => exact fun c ↦ (h.2 c).trans (h'.2 c).symm

theorem Scope.Reflects.within (h : scope.Reflects t u groups) (h' : scope'.Reflects t' u groups')
    (hall : SeesAll u groups → SeesAll u groups')
    (hsees : ∀ c, Sees t u groups c → Sees t' u groups' c) : scope.Within scope' := by
  cases scope' with
  | unscoped => cases scope <;> trivial
  | customers ids' =>
    cases scope with
    | unscoped => exact h'.1 (hall h)
    | customers ids => exact fun c hc ↦ (h'.2 c).mpr (hsees c ((h.2 c).mp hc))

/-! ## Both read the rows -/

theorem not_seesAll (hrole : u.role ≠ .superAdmin) (hscope : u.accessScope = .customers)
    (hgroups : ∀ g ∈ groups, g.accessScope = .customers) : ¬ SeesAll u groups := by
  rintro (hrole' | hall | ⟨g, hg, hall⟩)
  · exact hrole hrole'
  · rw [hall] at hscope
    cases hscope
  · rw [hgroups g hg] at hall
    cases hall

theorem mem_own : c ∈ (t.userCustomerScopes.filter fun s ↦ s.userId = userId).map
    UserCustomerScope.customerId ↔ ⟨userId, c⟩ ∈ t.userCustomerScopes := by
  simp only [List.mem_map, List.mem_filter, decide_eq_true_eq]
  constructor
  · rintro ⟨⟨userId, c⟩, ⟨hs, rfl⟩, rfl⟩
    exact hs
  · intro hs
    exact ⟨_, ⟨hs, rfl⟩, rfl⟩

theorem resolveScope_reflects : (t.resolveScope u).Reflects t u (t.groupsOf u.id) := by
  unfold Tenancy.resolveScope
  split
  · rename_i hrole
    exact .inl hrole
  · rename_i hrole
    split
    · rename_i hscope
      cases hs : u.accessScope with
      | all => exact .inr (.inl hs)
      | customers => exact absurd hs hscope
    · rename_i hscope
      rw [not_not] at hscope
      dsimp only
      split
      · rename_i hany
        obtain ⟨g, hg, hall⟩ := List.any_eq_true.mp hany
        exact .inr (.inr ⟨g, hg, of_decide_eq_true hall⟩)
      · rename_i hany
        have hgroups : ∀ g ∈ t.groupsOf u.id, g.accessScope = .customers := by
          intro g hg
          cases hs : g.accessScope with
          | customers => rfl
          | all => exact absurd (List.any_eq_true.mpr ⟨g, hg, decide_eq_true hs⟩) hany
        refine ⟨not_seesAll hrole hscope hgroups, fun c ↦ ?_⟩
        rw [List.mem_eraseDups, List.mem_append, mem_own, Sees]
        simp only [List.mem_map, List.mem_filter, decide_eq_true_eq]
        constructor
        · rintro (hown | ⟨⟨groupId, c⟩, ⟨hs, g, ⟨hg, -⟩, rfl⟩, rfl⟩)
          · exact .inl hown
          · exact .inr ⟨g, hg, hs⟩
        · rintro (hown | ⟨g, hg, hs⟩)
          · exact .inl hown
          · exact .inr ⟨_, ⟨hs, g, ⟨hg, hgroups g hg⟩, rfl⟩, rfl⟩

theorem mem_directSources : c ∈ (directSources names t userId).map NamedCustomer.id ↔
    ⟨userId, c⟩ ∈ t.userCustomerScopes := by
  rw [directSources, List.map_map]
  exact mem_own

theorem mem_groupSource {g : ScopedGroup} :
    c ∈ (groupSource names t g).customers.map NamedCustomer.id ↔
      ⟨g.id, c⟩ ∈ t.groupCustomerScopes := by
  simp only [groupSource, List.map_map, List.mem_map, List.mem_filter, decide_eq_true_eq,
    Function.comp_apply, namedCustomer]
  constructor
  · rintro ⟨⟨groupId, c⟩, ⟨hs, rfl⟩, rfl⟩
    exact hs
  · intro hs
    exact ⟨_, ⟨hs, rfl⟩, rfl⟩

/-- The groups a report looks at. -/
def localGroups (t : Tenancy) (orgId userId : Id) : List ScopedGroup :=
  (t.groupsOf userId).filter fun g ↦ g.orgId = orgId

theorem getEffectiveScope_reflects (names : DisplayNames) (hu : t.user orgId userId = some u) :
    ∃ e, getEffectiveScope names t orgId userId = .ok e ∧
      e.toScope.Reflects t u (localGroups t orgId userId) := by
  obtain ⟨-, rfl, -⟩ := Tenancy.user_eq_some.mp hu
  have hsources : groupSources names t orgId u.id =
      (localGroups t orgId u.id).map (groupSource names t) := rfl
  unfold getEffectiveScope
  rw [hu, hsources]
  simp only [demand, bind, Except.bind]
  split
  · rename_i hself
    refine ⟨_, rfl, ?_⟩
    rcases hself with hrole | hscope
    · exact .inl hrole
    · cases hs : u.accessScope with
      | all => exact .inr (.inl hs)
      | customers => exact absurd hs hscope
  · rename_i hself
    obtain ⟨hrole, hscope⟩ := not_or.mp hself
    rw [not_not] at hscope
    split
    · rename_i hany
      obtain ⟨source, hsource, hall⟩ := List.any_eq_true.mp hany
      obtain ⟨g, hg, rfl⟩ := List.mem_map.mp hsource
      exact ⟨_, rfl, .inr (.inr ⟨g, hg, of_decide_eq_true hall⟩)⟩
    · rename_i hany
      have hgroups : ∀ g ∈ localGroups t orgId u.id, g.accessScope = .customers := by
        intro g hg
        cases hs : g.accessScope with
        | customers => rfl
        | all =>
          refine absurd (List.any_eq_true.mpr ⟨_, List.mem_map_of_mem hg, ?_⟩) hany
          exact decide_eq_true hs
      refine ⟨_, rfl, not_seesAll hrole hscope hgroups, fun c ↦ ?_⟩
      dsimp only
      rw [List.mem_eraseDups, List.mem_append, mem_directSources, Sees]
      refine or_congr Iff.rfl ?_
      simp only [List.mem_flatMap, List.mem_filter, decide_eq_true_eq, List.mem_map]
      constructor
      · rintro ⟨_, ⟨⟨g, hg, rfl⟩, -⟩, hc⟩
        exact ⟨g, hg, mem_groupSource.mp (List.mem_map.mpr hc)⟩
      · rintro ⟨g, hg, hs⟩
        refine ⟨groupSource names t g, ⟨⟨g, hg, rfl⟩, hgroups g hg⟩, ?_⟩
        exact List.mem_map.mp (mem_groupSource.mpr hs)

theorem localGroups_eq (hl : t.MembersLocal) (hu : t.user orgId userId = some u) :
    localGroups t orgId userId = t.groupsOf u.id := by
  obtain ⟨hmem, rfl, rfl⟩ := Tenancy.user_eq_some.mp hu
  refine List.filter_eq_self.mpr fun g hg ↦ ?_
  obtain ⟨hg, hm⟩ := Tenancy.mem_groupsOf.mp hg
  exact decide_eq_true (hl u hmem g hg hm)

end

/-! ## Members stay local -/

section

variable {rules : TextRules} {t t' : Tenancy} {orgId userId groupId callerId : Id}

theorem Tenancy.MembersLocal.frame (hl : t.MembersLocal)
    (husers : ∀ u' ∈ t'.users, ∃ u ∈ t.users, u.id = u'.id ∧ u.orgId = u'.orgId)
    (hgroups : ∀ g' ∈ t'.groups, ∃ g ∈ t.groups, g.id = g'.id ∧ g.orgId = g'.orgId)
    (hmembers : t'.groupMemberships ⊆ t.groupMemberships) : t'.MembersLocal := by
  intro u' hu' g' hg' hm
  obtain ⟨u, hu, hid, horg⟩ := husers u' hu'
  obtain ⟨g, hg, hgid, hgorg⟩ := hgroups g' hg'
  rw [← horg, ← hgorg]
  refine hl u hu g hg ?_
  rw [hid, hgid]
  exact hmembers hm

theorem Tenancy.MembersLocal.update {f : ScopedUser → ScopedUser} (hl : t.MembersLocal)
    (hid : ∀ u, (f u).id = u.id) (horg : ∀ u, (f u).orgId = u.orgId) :
    { t with users := t.users.update f hid }.MembersLocal := by
  refine hl.frame (fun u' hu' ↦ ?_) (fun g hg ↦ ⟨g, hg, rfl, rfl⟩) (List.Subset.refl _)
  obtain ⟨u, hu, rfl⟩ := (Keyed.mem_update hid).mp hu'
  exact ⟨u, hu, (hid u).symm, (horg u).symm⟩

/-- `applyGroupMembership` puts a user of the organization into its groups. -/
theorem Tenancy.MembersLocal.applyGroupMembership {groupIds : Option (List Id)}
    {actor : Option Actor} {existing : ScopedUser} (hl : t.MembersLocal)
    (hu : t.user orgId userId = some existing)
    (h : applyGroupMembership t orgId userId groupIds actor = .ok t') : t'.MembersLocal := by
  cases groupIds with
  | none =>
    obtain rfl := Except.ok.inj h
    exact hl
  | some ids =>
    rw [Shellius.applyGroupMembership] at h
    cases hv : validateGroupIds t orgId actor ids with
    | error e => rw [hv] at h; cases h
    | ok found =>
      rw [hv] at h
      obtain rfl := Except.ok.inj h
      simp only [validateGroupIds, bind_eq_ok, require_eq_ok, pure_eq_ok] at hv
      obtain ⟨-, -, -, -, rfl⟩ := hv
      obtain ⟨humem, hukey, huorg⟩ := Tenancy.user_eq_some.mp hu
      intro v hv g hg hm
      rcases List.mem_append.mp hm with hm | hm
      · exact hl v hv g hg (List.mem_filter.mp hm).1
      · obtain ⟨g', hg', he⟩ := List.mem_map.mp hm
        obtain ⟨hgid, hvid⟩ := GroupMembership.mk.inj he
        obtain ⟨hg', hfound⟩ := List.mem_filter.mp hg'
        obtain rfl : g' = g := Keyed.ext hg' hg hgid
        obtain rfl : existing = v := Keyed.ext humem hv (hukey.trans hvid)
        exact (of_decide_eq_true hfound).2.trans huorg.symm

end

/-! ## More rows, wider scopes -/

inductive ScopeRow where
  | membership (m : GroupMembership)
  | ofUser (s : UserCustomerScope)
  | ofGroup (s : GroupCustomerScope)

namespace Tenancy

def addRow (t : Tenancy) : ScopeRow → Tenancy
  | .membership m => { t with groupMemberships := t.groupMemberships ++ [m] }
  | .ofUser s => { t with userCustomerScopes := t.userCustomerScopes ++ [s] }
  | .ofGroup s => { t with groupCustomerScopes := t.groupCustomerScopes ++ [s] }

def removeRow (t : Tenancy) : ScopeRow → Tenancy
  | .membership m => { t with groupMemberships := t.groupMemberships.filter fun x ↦ x ≠ m }
  | .ofUser s => { t with userCustomerScopes := t.userCustomerScopes.filter fun x ↦ x ≠ s }
  | .ofGroup s => { t with groupCustomerScopes := t.groupCustomerScopes.filter fun x ↦ x ≠ s }

/-- The tables have the same users and groups, and `t'` all rows of `t` that make
up scopes. -/
structure MoreRows (t t' : Tenancy) : Prop where
  users : t'.users = t.users
  groups : t'.groups = t.groups
  memberships : t.groupMemberships ⊆ t'.groupMemberships
  ofUsers : t.userCustomerScopes ⊆ t'.userCustomerScopes
  ofGroups : t.groupCustomerScopes ⊆ t'.groupCustomerScopes

theorem moreRows_addRow (t : Tenancy) (row : ScopeRow) : t.MoreRows (t.addRow row) := by
  cases row with
  | membership m =>
    exact ⟨rfl, rfl, List.subset_append_left _ _, List.Subset.refl _, List.Subset.refl _⟩
  | ofUser s =>
    exact ⟨rfl, rfl, List.Subset.refl _, List.subset_append_left _ _, List.Subset.refl _⟩
  | ofGroup s =>
    exact ⟨rfl, rfl, List.Subset.refl _, List.Subset.refl _, List.subset_append_left _ _⟩

theorem removeRow_moreRows (t : Tenancy) (row : ScopeRow) : (t.removeRow row).MoreRows t := by
  cases row with
  | membership m =>
    exact ⟨rfl, rfl, fun _ ↦ List.mem_of_mem_filter, List.Subset.refl _, List.Subset.refl _⟩
  | ofUser s =>
    exact ⟨rfl, rfl, List.Subset.refl _, fun _ ↦ List.mem_of_mem_filter, List.Subset.refl _⟩
  | ofGroup s =>
    exact ⟨rfl, rfl, List.Subset.refl _, List.Subset.refl _, fun _ ↦ List.mem_of_mem_filter⟩

end Tenancy

section

variable {t t' : Tenancy} {u : ScopedUser} {groups groups' : List ScopedGroup}
  {orgId userId c : Id}

theorem Tenancy.MoreRows.groupsOf (h : t.MoreRows t') : t.groupsOf userId ⊆ t'.groupsOf userId := by
  intro g hg
  obtain ⟨hg, hm⟩ := Tenancy.mem_groupsOf.mp hg
  exact Tenancy.mem_groupsOf.mpr ⟨h.groups ▸ hg, h.memberships hm⟩

theorem SeesAll.mono (h : groups ⊆ groups') : SeesAll u groups → SeesAll u groups' := by
  rintro (hrole | hall | ⟨g, hg, hall⟩)
  · exact .inl hrole
  · exact .inr (.inl hall)
  · exact .inr (.inr ⟨g, h hg, hall⟩)

theorem Sees.mono (hrows : t.MoreRows t') (h : groups ⊆ groups') :
    Sees t u groups c → Sees t' u groups' c := by
  rintro (hown | ⟨g, hg, hs⟩)
  · exact .inl (hrows.ofUsers hown)
  · exact .inr ⟨g, h hg, hrows.ofGroups hs⟩

theorem Tenancy.MoreRows.resolveScope (h : t.MoreRows t') :
    (t.resolveScope u).Within (t'.resolveScope u) :=
  resolveScope_reflects.within resolveScope_reflects (SeesAll.mono h.groupsOf)
    fun _ ↦ Sees.mono h h.groupsOf

theorem Tenancy.MoreRows.effectiveScope (h : t.MoreRows t') (names : DisplayNames)
    (hu : t.user orgId userId = some u) : ∃ e e', getEffectiveScope names t orgId userId = .ok e ∧
      getEffectiveScope names t' orgId userId = .ok e' ∧ e.toScope.Within e'.toScope := by
  have hu' : t'.user orgId userId = some u := by
    rw [Tenancy.user, h.users]
    exact hu
  obtain ⟨e, he, hr⟩ := getEffectiveScope_reflects names hu
  obtain ⟨e', he', hr'⟩ := getEffectiveScope_reflects names hu'
  have hlocal : localGroups t orgId userId ⊆ localGroups t' orgId userId := by
    intro g hg
    obtain ⟨hg, horg⟩ := List.mem_filter.mp hg
    exact List.mem_filter.mpr ⟨h.groupsOf hg, horg⟩
  exact ⟨e, e', he, he', hr.within hr' (SeesAll.mono hlocal) fun _ ↦ Sees.mono h hlocal⟩

/-- The report on a user of the organization is of the scope that is enforced; one
more row never shrinks either, and one row less never grows either. -/
theorem effectiveScope_agrees (names : DisplayNames) (hl : t.MembersLocal) (hu : t.user orgId userId = some u) :
    ∃ e, getEffectiveScope names t orgId userId = .ok e ∧
      e.toScope.Agrees (t.resolveScope u) ∧
      ∀ row,
        ((t.resolveScope u).Within ((t.addRow row).resolveScope u) ∧
          ∃ e', getEffectiveScope names (t.addRow row) orgId userId = .ok e' ∧
            e.toScope.Within e'.toScope) ∧
        ((t.removeRow row).resolveScope u).Within (t.resolveScope u) ∧
          ∃ e', getEffectiveScope names (t.removeRow row) orgId userId = .ok e' ∧
            e'.toScope.Within e.toScope := by
  obtain ⟨e, he, hr⟩ := getEffectiveScope_reflects names hu
  rw [localGroups_eq hl hu] at hr
  refine ⟨e, he, hr.agrees resolveScope_reflects, fun row ↦
    ⟨⟨(t.moreRows_addRow row).resolveScope, ?_⟩, (t.removeRow_moreRows row).resolveScope, ?_⟩⟩
  · obtain ⟨e₁, e', he₁, he', hw⟩ :=
      (t.moreRows_addRow row).effectiveScope names hu
    obtain rfl := Except.ok.inj (he.symm.trans he₁)
    exact ⟨e', he', hw⟩
  · have hu' : (t.removeRow row).user orgId userId = some u := by
      cases row <;> exact hu
    obtain ⟨e', e₁, he', he₁, hw⟩ :=
      (t.removeRow_moreRows row).effectiveScope names hu'
    obtain rfl := Except.ok.inj (he.symm.trans he₁)
    exact ⟨e', he', hw⟩

def twoSources : Tenancy where
  customers := scopedTenancy.customers
  users := { rows := [{ id := "ana", orgId := "o1", accessScope := .customers }] }
  groups := { rows := [{ id := "g1", orgId := "o1" }] }
  groupMemberships := [⟨"g1", "ana"⟩]
  userCustomerScopes := [⟨"ana", "c1"⟩]
  groupCustomerScopes := [⟨"g1", "c2"⟩]

/-- Her report agrees with what is enforced, and joining another group takes nothing
away. -/
theorem effectiveScope_agrees_ana :
    ∃ u, twoSources.user "o1" "ana" = some u ∧
      ∃ e, getEffectiveScope ⟨id, id⟩ twoSources "o1" "ana" = .ok e ∧
        e.customerIds = ["c1", "c2"] ∧ e.toScope.Agrees (twoSources.resolveScope u) := by
  have hu : twoSources.user "o1" "ana" = some _ := rfl
  obtain ⟨e, he, hagrees, -⟩ :=
    effectiveScope_agrees ⟨id, id⟩ (by decide) hu
  obtain rfl := Except.ok.inj he
  exact ⟨_, hu, _, he, by decide, hagrees⟩

end

/-! ## Reports in a run -/

section

variable {rules : TextRules} {t t' : Tenancy} {orgId userId : Id} {u : ScopedUser}

end

end Shellius
