import Shellius.Users.Roles

/-!
# Writing policies

`policyService.create` and `policyService.update`.  Each checks the customer and
every reference of the policy by queries of its own, and then writes in one
transaction.  The references are ids and role keys in columns without foreign
keys; only `customerId` has one, with `onDelete: SetNull`.
-/

namespace Shellius

open Lib

/-- The answer of the error handler to a write of a row that is gone. -/
def resourceNotFound : ApiError := ⟨404, "Resource not found", none⟩

/-- The body of `create` and `update`; `none` is `undefined`. -/
structure PolicyData where
  subjects : Option (List PolicySubject) := none
  customerId : Option (Option Id) := none
  name : Option String := none
  effect : Option PolicyEffect := none
  targetEnvironments : Option (List Environment) := none
  targetLabels : Option (Option (List (String × String))) := none
  targetServerIds : Option (List Id) := none
  allowedPrincipals : Option (List String) := none
  maxSessionDuration : Option Int := none
  requireApproval : Option Bool := none
  autoApprove : Option Bool := none
  isActive : Option Bool := none
  priority : Option Int := none
  osProvisioning : Option OsProvisioning := none
  isBreakGlass : Option Bool := none
  approverGroupId : Option (Option Id) := none
  approverRoles : Option (List String) := none
  approverUserIds : Option (List Id) := none

/-! ## Checks -/

def subjectIds (subjectType : SubjectType) (subjects : List PolicySubject) : List String :=
  (subjects.filter fun s ↦ s.subjectType = subjectType).map PolicySubject.subjectId

def PolicyData.roleKeys (data : PolicyData) : List String :=
  (subjectIds .role (data.subjects.getD []) ++ data.approverRoles.getD []).eraseDups

/-- The users that a body names. -/
def PolicyData.userIds (data : PolicyData) : List Id :=
  (subjectIds .user (data.subjects.getD []) ++ data.approverUserIds.getD []).eraseDups

/-- The groups that a body names. -/
def PolicyData.groupIds (data : PolicyData) : List Id :=
  (subjectIds .group (data.subjects.getD []) ++
    (truthy data.approverGroupId.join).toList).eraseDups

/-- One of the three queries of `assertPolicyRefs`, with what is asked of its
result. -/
def checkRefs (t : Tenancy) (orgId : Id) (data : PolicyData) : SubjectType → Except ApiError Unit
  | .role =>
    let roles := t.roles.rows.filter fun r ↦ r.key ∈ data.roleKeys ∧ r.orgId = orgId
    let missing := data.roleKeys.filter fun k ↦ k ∉ roles.map fun r ↦ r.key
    require (missing = []) ⟨400, "Unknown role \"" ++ missing.headD "" ++ "\"", none⟩
  | .user =>
    let users := t.users.rows.filter fun u ↦ u.id ∈ data.userIds ∧ u.orgId = orgId
    require (users.length = data.userIds.length)
      ⟨400, "One or more users are not in this organization", none⟩
  | .group =>
    let groups := t.groups.rows.filter fun g ↦ g.id ∈ data.groupIds ∧ g.orgId = orgId
    require (groups.length = data.groupIds.length)
      ⟨400, "One or more groups are not in this organization", none⟩

def assertPolicyRefs (t : Tenancy) (orgId : Id) (data : PolicyData) : Except ApiError Unit := do
  checkRefs t orgId data .role
  checkRefs t orgId data .user
  checkRefs t orgId data .group

def checkPolicyCustomer (t : Tenancy) (orgId : Id) (scope : Scope) :
    Option Id → Except ApiError Unit
  | none => .ok ⟨⟩
  | some id =>
    require ((t.customer orgId scope id).isSome) ⟨400, "Customer not found in organization", none⟩

/-! ## Creating policies -/

/-- The row that `create` writes, if the body has what a policy needs. -/
def newPolicy (orgId id : Id) (data : PolicyData) : Except ApiError AccessPolicy := do
  let name ← demand (truthy data.name) ⟨400, "name is required", none⟩
  let effect ← demand data.effect ⟨400, "effect is required", none⟩
  let maxSessionDuration ← demand (data.maxSessionDuration.filter fun n ↦ 0 < n)
    ⟨400, "maxSessionDuration must be a positive integer", none⟩
  pure {
    id, orgId, name, effect, maxSessionDuration
    customerId := truthy data.customerId.join
    targetEnvironments := data.targetEnvironments.getD []
    targetLabels := data.targetLabels.getD (some [])
    targetServerIds := data.targetServerIds.getD []
    allowedPrincipals := data.allowedPrincipals.getD []
    requireApproval := data.requireApproval.getD false
    autoApprove := data.autoApprove.getD false
    isActive := data.isActive.getD true
    priority := data.priority.getD 100
    osProvisioning := data.osProvisioning.getD {}
    isBreakGlass := data.isBreakGlass.getD false
    approverGroupId := truthy data.approverGroupId.join
    approverRoles := data.approverRoles.getD []
    approverUserIds := data.approverUserIds.getD []
    subjects := (data.subjects.getD []).eraseDups }

/-- The foreign key of `customerId`. -/
def customerExists (t : Tenancy) (customerId : Option Id) : Bool :=
  customerId.all fun id ↦ (t.customers.find id).isSome

/-- The transaction of `create`. -/
def insertPolicy (t : Tenancy) (p : AccessPolicy) : Except ApiError Tenancy := do
  require (customerExists t p.customerId) databaseRequestError
  let accessPolicies ← demand (t.accessPolicies.insert? p) duplicateRow
  pure { t with accessPolicies }

/-- `create`, with the id of the new row. -/
def createPolicy (t : Tenancy) (orgId : Id) (data : PolicyData) (scope : Scope) (id : Id) :
    Except ApiError Tenancy := do
  let p ← newPolicy orgId id data
  checkPolicyCustomer t orgId scope (truthy data.customerId.join)
  assertPolicyRefs t orgId data
  insertPolicy t p

/-! ## Editing policies -/

/-- The row after an update; subjects are replaced only when they are given. -/
def PolicyData.apply (data : PolicyData) (p : AccessPolicy) : AccessPolicy :=
  { p with
    customerId := (data.customerId.map truthy).getD p.customerId
    name := data.name.getD p.name
    effect := data.effect.getD p.effect
    targetEnvironments := data.targetEnvironments.getD p.targetEnvironments
    targetLabels := data.targetLabels.getD p.targetLabels
    targetServerIds := data.targetServerIds.getD p.targetServerIds
    allowedPrincipals := data.allowedPrincipals.getD p.allowedPrincipals
    maxSessionDuration := data.maxSessionDuration.getD p.maxSessionDuration
    requireApproval := data.requireApproval.getD p.requireApproval
    autoApprove := data.autoApprove.getD p.autoApprove
    isActive := data.isActive.getD p.isActive
    priority := data.priority.getD p.priority
    osProvisioning := data.osProvisioning.getD p.osProvisioning
    isBreakGlass := data.isBreakGlass.getD p.isBreakGlass
    approverGroupId := (data.approverGroupId.map truthy).getD p.approverGroupId
    approverRoles := data.approverRoles.getD p.approverRoles
    approverUserIds := data.approverUserIds.getD p.approverUserIds
    subjects := (data.subjects.map List.eraseDups).getD p.subjects }

/-- The rows of a table of policies after an update of one. -/
def editPolicy (id : Id) (data : PolicyData) (p : AccessPolicy) : AccessPolicy :=
  if p.id = id then data.apply p else p

theorem editPolicy_id {id : Id} {data : PolicyData} (p : AccessPolicy) :
    (editPolicy id data p).id = p.id := by
  unfold editPolicy
  split <;> rfl

theorem editPolicy_orgId {id : Id} {data : PolicyData} (p : AccessPolicy) :
    (editPolicy id data p).orgId = p.orgId := by
  unfold editPolicy
  split <;> rfl

/-- The transaction of `update`. -/
def writePolicy (t : Tenancy) (id : Id) (data : PolicyData) : Except ApiError Tenancy := do
  require ((t.accessPolicies.find id).isSome) resourceNotFound
  require (customerExists t (truthy data.customerId.join)) databaseRequestError
  pure { t with accessPolicies := t.accessPolicies.update (editPolicy id data) editPolicy_id }

/-- `update` -/
def updatePolicy (t : Tenancy) (orgId id : Id) (data : PolicyData) (scope : Scope) :
    Except ApiError Tenancy := do
  require ((t.policy orgId id).isSome) ⟨404, "Policy not found", none⟩
  checkPolicyCustomer t orgId scope data.customerId.join
  assertPolicyRefs t orgId data
  writePolicy t id data

/-! ## What a call that went through has done -/

section

variable {t t' : Tenancy} {orgId id : Id} {data : PolicyData} {p : AccessPolicy} {scope : Scope}

theorem newPolicy_eq_ok (h : newPolicy orgId id data = .ok p) :
    p.id = id ∧ p.orgId = orgId ∧ p.customerId = truthy data.customerId.join ∧
      p.approverGroupId = truthy data.approverGroupId.join ∧
      p.approverRoles = data.approverRoles.getD [] ∧
      p.approverUserIds = data.approverUserIds.getD [] ∧
      p.subjects = (data.subjects.getD []).eraseDups ∧ p.isActive = data.isActive.getD true := by
  simp only [newPolicy, bind_eq_ok, pure_eq_ok] at h
  obtain ⟨name, -, effect, -, n, -, rfl⟩ := h
  exact ⟨rfl, rfl, rfl, rfl, rfl, rfl, rfl, rfl⟩

theorem assertPolicyRefs_eq_ok (h : assertPolicyRefs t orgId data = .ok ⟨⟩) :
    (∀ k ∈ data.roleKeys, ∃ r ∈ t.roles, r.orgId = orgId ∧ r.key = k) ∧
    (∀ i ∈ data.userIds, (t.user orgId i).isSome) ∧
    ∀ i ∈ data.groupIds, (t.group orgId i).isSome := by
  simp only [assertPolicyRefs, checkRefs, bind_eq_ok, require_eq_ok] at h
  obtain ⟨-, hroles, -, husers, hgroups⟩ := h
  refine ⟨fun k hk ↦ ?_, fun i hi ↦ ?_, fun i hi ↦ ?_⟩
  · have hfound : k ∈ (t.roles.rows.filter fun r ↦ r.key ∈ data.roleKeys ∧ r.orgId = orgId).map
        fun r ↦ r.key := by
      by_contra hnot
      exact List.filter_eq_nil_iff.mp hroles k hk (decide_eq_true hnot)
    obtain ⟨r, hr, rfl⟩ := List.mem_map.mp hfound
    obtain ⟨hr, hkey⟩ := List.mem_filter.mp hr
    exact ⟨r, hr, (of_decide_eq_true hkey).2, rfl⟩
  · obtain ⟨u, hu, hid, horg⟩ := Keyed.exists_of_length_filter
      (fun u _ hu ↦ (of_decide_eq_true hu).1) husers i hi
    rw [Tenancy.user_eq_some.mpr ⟨hu, hid, (of_decide_eq_true horg).2⟩]
    rfl
  · obtain ⟨g, hg, hid, horg⟩ := Keyed.exists_of_length_filter
      (fun g _ hg ↦ (of_decide_eq_true hg).1) hgroups i hi
    rw [Tenancy.group_eq_some.mpr ⟨hg, hid, (of_decide_eq_true horg).2⟩]
    rfl

theorem checkPolicyCustomer_eq_ok {customerId : Option Id}
    (h : checkPolicyCustomer t orgId scope customerId = .ok ⟨⟩) :
    ∀ c ∈ customerId, (t.customer orgId scope c).isSome := by
  cases customerId with
  | none => simp
  | some c =>
    rintro c' ⟨⟩
    exact require_eq_ok.mp h

theorem insertPolicy_eq_ok (h : insertPolicy t p = .ok t') :
    customerExists t p.customerId = true ∧ ∃ hp : ∀ q ∈ t.accessPolicies, q.id ≠ p.id,
      t' = { t with accessPolicies := t.accessPolicies.insert p hp } := by
  simp only [insertPolicy, bind_eq_ok, demand_eq_ok, require_eq_ok, pure_eq_ok] at h
  obtain ⟨-, hcustomer, policies, hpolicies, rfl⟩ := h
  obtain ⟨hp, rfl⟩ := Keyed.insert?_eq_some.mp hpolicies
  exact ⟨hcustomer, hp, rfl⟩

theorem createPolicy_eq_ok (h : createPolicy t orgId data scope id = .ok t') :
    ∃ p, newPolicy orgId id data = .ok p ∧
      checkPolicyCustomer t orgId scope (truthy data.customerId.join) = .ok ⟨⟩ ∧
      assertPolicyRefs t orgId data = .ok ⟨⟩ ∧ insertPolicy t p = .ok t' := by
  simp only [createPolicy, bind_eq_ok] at h
  obtain ⟨p, hp, ⟨⟩, hcustomer, ⟨⟩, hrefs, h⟩ := h
  exact ⟨p, hp, hcustomer, hrefs, h⟩

theorem writePolicy_eq_ok (h : writePolicy t id data = .ok t') :
    (t.accessPolicies.find id).isSome ∧ customerExists t (truthy data.customerId.join) = true ∧
      t' = { t with
        accessPolicies := t.accessPolicies.update (editPolicy id data) editPolicy_id } := by
  simp only [writePolicy, bind_eq_ok, require_eq_ok, pure_eq_ok] at h
  obtain ⟨-, hfound, -, hcustomer, rfl⟩ := h
  exact ⟨hfound, hcustomer, rfl⟩

theorem updatePolicy_eq_ok (h : updatePolicy t orgId id data scope = .ok t') :
    (t.policy orgId id).isSome ∧ checkPolicyCustomer t orgId scope data.customerId.join = .ok ⟨⟩ ∧
      assertPolicyRefs t orgId data = .ok ⟨⟩ ∧ writePolicy t id data = .ok t' := by
  simp only [updatePolicy, bind_eq_ok, require_eq_ok] at h
  obtain ⟨-, hfound, ⟨⟩, hcustomer, ⟨⟩, hrefs, h⟩ := h
  exact ⟨hfound, hcustomer, hrefs, h⟩

end

end Shellius
