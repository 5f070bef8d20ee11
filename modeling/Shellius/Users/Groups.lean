import Shellius.Users.Accounts

/-!
# Groups

`groupService`: members, customer scope and deletion of groups.  `addMember` and
`removeMember` check no more than that the rows exist; the permission to manage
groups is a matter of the route.
-/

namespace Shellius

open Lib

def addMember (t : Tenancy) (orgId groupId userId : Id) : Except ApiError Tenancy := do
  require ((t.group orgId groupId).isSome) ⟨404, "Group not found", none⟩
  require ((t.user orgId userId).isSome) ⟨404, "User not found in organization", none⟩
  require (⟨groupId, userId⟩ ∉ t.groupMemberships) ⟨409, "User is already a member", none⟩
  pure { t with groupMemberships := t.groupMemberships ++ [⟨groupId, userId⟩] }

def removeMember (t : Tenancy) (orgId groupId userId : Id) : Except ApiError Tenancy := do
  require ((t.group orgId groupId).isSome) ⟨404, "Group not found", none⟩
  require (⟨groupId, userId⟩ ∈ t.groupMemberships) ⟨404, "Membership not found", none⟩
  pure { t with groupMemberships := t.groupMemberships.filter fun m ↦ m ≠ ⟨groupId, userId⟩ }

def rescopeGroup (id : Id) (accessScope : AccessScope) (g : ScopedGroup) : ScopedGroup :=
  { g with accessScope := if g.id = id then accessScope else g.accessScope }

theorem rescopeGroup_id {id : Id} {accessScope : AccessScope} (g : ScopedGroup) :
    (rescopeGroup id accessScope g).id = g.id := rfl

def assignGroupScope (t : Tenancy) (orgId groupId : Id) (accessScope : AccessScope)
    (customerIds : List Id) (actor : Option Actor) (callerScope : Scope) :
    Except ApiError Tenancy := do
  require (holds actor "users.assign_scope")
    ⟨403, "You don't have permission to assign customer scope", some "PERMISSION_DENIED"⟩
  require ((t.group orgId groupId).isSome) ⟨404, "Group not found", none⟩
  let ids ← checkGrant t orgId callerScope accessScope customerIds
  pure { t with
    groups := t.groups.update (rescopeGroup groupId accessScope) rescopeGroup_id
    groupCustomerScopes := (t.groupCustomerScopes.filter fun s ↦ s.groupId ≠ groupId) ++
      ids.map fun c ↦ ⟨groupId, c⟩ }

/-- `deleteGroup`, with what the foreign keys do. -/
def deleteGroup (t : Tenancy) (orgId groupId : Id) : Except ApiError Tenancy := do
  require ((t.group orgId groupId).isSome) ⟨404, "Group not found", none⟩
  pure { t with
    groups := t.groups.filter fun g ↦ g.id ≠ groupId
    groupMemberships := t.groupMemberships.filter fun m ↦ m.groupId ≠ groupId
    groupCustomerScopes := t.groupCustomerScopes.filter fun s ↦ s.groupId ≠ groupId
    accessPolicies :=
      t.accessPolicies.update (cleanupPolicySubjects .group groupId) cleanupPolicySubjects_id }

end Shellius
