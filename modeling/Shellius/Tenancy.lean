import Shellius.Lib.Keyed
import Shellius.Permissions
import Shellius.Scope

/-!
# The tables administrators change

The rows that `userService`, `roleService`, `groupService`, `policyService` and
`customerService` write, with the columns these services need beyond those of
`Schema`.  Primary keys are invariants of the tables (`Lib.Keyed`).  `resolveScope`
reads the scope of a user off them.
-/

namespace Shellius

open Lib

/-! ## Rows -/

/-- Whether a user or a group is confined to some customers. -/
inductive AccessScope where
  | all | customers
deriving DecidableEq

structure Customer where
  id : Id
  orgId : Id

/-- `Role`, with its display name. -/
structure NamedRole extends Role where
  name : String := ""
deriving DecidableEq

/-- `User`, with its visibility scope. -/
structure ScopedUser extends User where
  accessScope : AccessScope := .all
deriving DecidableEq

/-- `Group`, with its visibility scope. -/
structure ScopedGroup extends Group where
  accessScope : AccessScope := .customers

structure UserCustomerScope where
  userId : Id
  customerId : Id
deriving DecidableEq

structure GroupCustomerScope where
  groupId : Id
  customerId : Id
deriving DecidableEq

/-! ## Tables -/

/-- The tables.  A row of `accessPolicies` holds its `PolicySubject` rows. -/
structure Tenancy where
  customers : Keyed Customer.id := .empty
  servers : List Server := []
  roles : Keyed (fun r : NamedRole ↦ r.id) := .empty
  users : Keyed (fun u : ScopedUser ↦ u.id) := .empty
  groups : Keyed (fun g : ScopedGroup ↦ g.id) := .empty
  groupMemberships : List GroupMembership := []
  userCustomerScopes : List UserCustomerScope := []
  groupCustomerScopes : List GroupCustomerScope := []
  accessPolicies : Keyed AccessPolicy.id := .empty

namespace Tenancy

variable (t : Tenancy)

/-- `prisma.user.findFirst({ where: { id, orgId } })` -/
def user (orgId id : Id) : Option ScopedUser := (t.users.find id).filter fun u ↦ u.orgId = orgId

/-- `prisma.role.findFirst({ where: { id, orgId } })` -/
def role (orgId id : Id) : Option NamedRole := (t.roles.find id).filter fun r ↦ r.orgId = orgId

/-- `prisma.group.findFirst({ where: { id, orgId } })` -/
def group (orgId id : Id) : Option ScopedGroup := (t.groups.find id).filter fun g ↦ g.orgId = orgId

/-- `prisma.accessPolicy.findFirst({ where: { id, orgId } })` -/
def policy (orgId id : Id) : Option AccessPolicy :=
  (t.accessPolicies.find id).filter fun p ↦ p.orgId = orgId

/-- `prisma.customer.findFirst({ where: { id, orgId, AND: [customerScopeWhere(scope)] } })` -/
def customer (orgId : Id) (scope : Scope) (id : Id) : Option Customer :=
  (t.customers.find id).filter fun c ↦ c.orgId = orgId && scope.admits c.id

/-- The `assignedRole` relation of a user. -/
def assignedRole (u : ScopedUser) : Option NamedRole := u.roleId.bind t.roles.find

def permissionsOf (u : ScopedUser) : List String :=
  permissionsForUser u.role ((t.assignedRole u).map NamedRole.toRole)

/-- The groups of a user, with `include: { group: true }`. -/
def groupsOf (userId : Id) : List ScopedGroup :=
  (t.groupMemberships.filter fun m ↦ m.userId = userId).filterMap fun m ↦ t.groups.find m.groupId

def resolveScope (u : ScopedUser) : Scope :=
  if u.role = .superAdmin then .unscoped
  else if u.accessScope ≠ .customers then .unscoped
  else
    let groups := t.groupsOf u.id
    if groups.any fun g ↦ g.accessScope = .all then .unscoped
    else
      let customersGroupIds :=
        (groups.filter fun g ↦ g.accessScope = .customers).map fun g ↦ g.id
      let own := t.userCustomerScopes.filter fun s ↦ s.userId = u.id
      let viaGroups := t.groupCustomerScopes.filter fun s ↦ s.groupId ∈ customersGroupIds
      .customers (own.map UserCustomerScope.customerId ++
        viaGroups.map GroupCustomerScope.customerId).eraseDups

/-- The scope of a caller, from their row. -/
def scopeOf (userId : Id) : Scope := ((t.users.find userId).map t.resolveScope).getD .unscoped

variable {t}

section

variable {orgId id : Id}

theorem user_eq_some {u : ScopedUser} :
    t.user orgId id = some u ↔ u ∈ t.users ∧ u.id = id ∧ u.orgId = orgId := by
  rw [user, Option.filter_eq_some_iff, Keyed.find_eq_some, decide_eq_true_eq, and_assoc]

theorem role_eq_some {r : NamedRole} :
    t.role orgId id = some r ↔ r ∈ t.roles ∧ r.id = id ∧ r.orgId = orgId := by
  rw [role, Option.filter_eq_some_iff, Keyed.find_eq_some, decide_eq_true_eq, and_assoc]

theorem group_eq_some {g : ScopedGroup} :
    t.group orgId id = some g ↔ g ∈ t.groups ∧ g.id = id ∧ g.orgId = orgId := by
  rw [group, Option.filter_eq_some_iff, Keyed.find_eq_some, decide_eq_true_eq, and_assoc]

theorem policy_eq_some {p : AccessPolicy} :
    t.policy orgId id = some p ↔ p ∈ t.accessPolicies ∧ p.id = id ∧ p.orgId = orgId := by
  rw [policy, Option.filter_eq_some_iff, Keyed.find_eq_some, decide_eq_true_eq, and_assoc]

theorem customer_eq_some {scope : Scope} {c : Customer} :
    t.customer orgId scope id = some c ↔
      c ∈ t.customers ∧ c.id = id ∧ c.orgId = orgId ∧ scope.admits c.id := by
  rw [customer, Option.filter_eq_some_iff, Keyed.find_eq_some, Bool.and_eq_true, decide_eq_true_eq,
    and_assoc]

theorem mem_groupsOf {userId : Id} {g : ScopedGroup} :
    g ∈ t.groupsOf userId ↔ g ∈ t.groups ∧ ⟨g.id, userId⟩ ∈ t.groupMemberships := by
  simp only [groupsOf, List.mem_filterMap, List.mem_filter, decide_eq_true_eq, Keyed.find_eq_some]
  constructor
  · rintro ⟨⟨groupId, userId⟩, ⟨hm, rfl⟩, hg, rfl⟩
    exact ⟨hg, hm⟩
  · rintro ⟨hg, hm⟩
    exact ⟨_, ⟨hm, rfl⟩, hg, rfl⟩

end

end Tenancy

end Shellius
