import Shellius.Policy.Manage

/-!
# Deleting customers

`customerService.deleteCustomer` handles the servers of the customer, then its
policies, and then deletes the row, each by statements of their own outside a
transaction.  When the row goes, its servers and scope rows go with it, and the
`customerId` of every policy that still names it becomes null, which means every
customer.
-/

namespace Shellius

open Lib

inductive ServersOption where
  | reassign | delete

inductive PoliciesOption where
  | orgwide | delete | reassign
deriving DecidableEq

/-- The `options` of `deleteCustomer`. -/
structure DeleteCustomerOptions where
  servers : Option ServersOption := none
  targetCustomerId : Option Id := none
  policies : PoliciesOption := .orgwide
  policiesTargetCustomerId : Option Id := none

def DeleteCustomerOptions.policiesTarget (options : DeleteCustomerOptions) : Option Id :=
  (truthy options.policiesTargetCustomerId).or options.targetCustomerId

/-! ## Statements -/

def serverCount (t : Tenancy) (customerId : Id) : Nat :=
  (t.servers.filter fun s ↦ s.customerId = customerId).length

def moveServer (orgId customerId target : Id) (s : Server) : Server :=
  { s with
    customerId := if s.customerId = customerId ∧ s.orgId = orgId then target else s.customerId }

/-- `server.updateMany` with `data: { customerId: target }`, under the foreign
key. -/
def reassignServers (t : Tenancy) (orgId customerId target : Id) : Except ApiError Tenancy := do
  require (customerExists t (some target) ∨
    ∀ s ∈ t.servers, ¬ (s.customerId = customerId ∧ s.orgId = orgId)) databaseRequestError
  pure { t with servers := t.servers.map (moveServer orgId customerId target) }

/-- The policies that the statements of `deleteCustomer` are about. -/
def isPolicyOf (orgId customerId : Id) (p : AccessPolicy) : Bool :=
  p.orgId = orgId ∧ p.customerId = some customerId

def movePolicy (orgId customerId target : Id) (p : AccessPolicy) : AccessPolicy :=
  { p with
    customerId := if isPolicyOf orgId customerId p then some target else p.customerId }

theorem movePolicy_id {orgId customerId target : Id} (p : AccessPolicy) :
    (movePolicy orgId customerId target p).id = p.id := rfl

def switchOff (orgId customerId : Id) (p : AccessPolicy) : AccessPolicy :=
  { p with isActive := if isPolicyOf orgId customerId p then false else p.isActive }

theorem switchOff_id {orgId customerId : Id} (p : AccessPolicy) :
    (switchOff orgId customerId p).id = p.id := rfl

/-- `accessPolicy.deleteMany({ where: { orgId, customerId } })` -/
def deletePolicies (t : Tenancy) (orgId customerId : Id) : Tenancy :=
  { t with accessPolicies := t.accessPolicies.filter fun p ↦ !isPolicyOf orgId customerId p }

/-- `accessPolicy.updateMany` with `data: { customerId: target }`, under the
foreign key. -/
def reassignPolicies (t : Tenancy) (orgId customerId target : Id) : Except ApiError Tenancy := do
  require (customerExists t (some target) ∨
    ∀ p ∈ t.accessPolicies.rows, isPolicyOf orgId customerId p = false) databaseRequestError
  pure { t with
    accessPolicies := t.accessPolicies.update (movePolicy orgId customerId target) movePolicy_id }

/-- `accessPolicy.updateMany` with `data: { isActive: false }` -/
def switchOffPolicies (t : Tenancy) (orgId customerId : Id) : Tenancy :=
  { t with
    accessPolicies := t.accessPolicies.update (switchOff orgId customerId) switchOff_id }

/-- A policy after its customer is gone: `onDelete: SetNull`. -/
def setNull (customerId : Id) (p : AccessPolicy) : AccessPolicy :=
  { p with customerId := if p.customerId = some customerId then none else p.customerId }

theorem setNull_id {customerId : Id} (p : AccessPolicy) : (setNull customerId p).id = p.id := rfl

/-- `customer.delete`, with what the foreign keys do. -/
def deleteCustomerRow (t : Tenancy) (customerId : Id) : Except ApiError Tenancy := do
  require ((t.customers.find customerId).isSome) resourceNotFound
  pure { t with
    customers := t.customers.filter fun c ↦ c.id ≠ customerId
    servers := t.servers.filter fun s ↦ s.customerId ≠ customerId
    userCustomerScopes := t.userCustomerScopes.filter fun s ↦ s.customerId ≠ customerId
    groupCustomerScopes := t.groupCustomerScopes.filter fun s ↦ s.customerId ≠ customerId
    accessPolicies := t.accessPolicies.update (setNull customerId) setNull_id }

/-! ## The service -/

def otherCustomer (customerId : Id) (target : Option Id) (what : String) : Except ApiError Id :=
  demand ((truthy target).filter fun id ↦ id ≠ customerId)
    ⟨400, "A different target customer is required to reassign " ++ what, none⟩

def findTarget (t : Tenancy) (orgId : Id) (scope : Scope) (target : Id) (missing : String) :
    Except ApiError Unit :=
  require ((t.customer orgId scope target).isSome) ⟨400, missing, none⟩

/-- What `deleteCustomer` does about the servers. -/
def handleServers (t : Tenancy) (orgId customerId : Id) (options : DeleteCustomerOptions)
    (scope : Scope) : Except ApiError Tenancy :=
  if serverCount t customerId = 0 then .ok t
  else
    match options.servers with
    | some .reassign => do
        let target ← otherCustomer customerId options.targetCustomerId "servers"
        findTarget t orgId scope target "Target customer not found"
        reassignServers t orgId customerId target
    | some .delete => .ok t
    | none => .error ⟨409, "Customer has servers; choose to reassign or delete them.", none⟩

/-- What `deleteCustomer` does about the policies. -/
def handlePolicies (t : Tenancy) (orgId customerId : Id) (options : DeleteCustomerOptions)
    (scope : Scope) : Except ApiError Tenancy :=
  match options.policies with
  | .delete => .ok (deletePolicies t orgId customerId)
  | .reassign => do
      let target ← otherCustomer customerId options.policiesTarget "policies"
      findTarget t orgId scope target "Target customer not found for policies"
      reassignPolicies t orgId customerId target
  | .orgwide => .ok (switchOffPolicies t orgId customerId)

/-- `deleteCustomer`.  What was done before an error stays done. -/
def deleteCustomer (t : Tenancy) (orgId customerId : Id) (options : DeleteCustomerOptions)
    (scope : Scope) : Tenancy × Except ApiError Unit :=
  match t.customer orgId scope customerId with
  | none => (t, .error ⟨404, "Customer not found", none⟩)
  | some _ =>
    match handleServers t orgId customerId options scope with
    | .error e => (t, .error e)
    | .ok t₁ =>
      match handlePolicies t₁ orgId customerId options scope with
      | .error e => (t₁, .error e)
      | .ok t₂ =>
        match deleteCustomerRow t₂ customerId with
        | .error e => (t₂, .error e)
        | .ok t₃ => (t₃, .ok ⟨⟩)

/-! ## What a call has done -/

section

variable {t t' : Tenancy} {orgId customerId : Id} {options : DeleteCustomerOptions} {scope : Scope}

theorem otherCustomer_eq_ok {target : Option Id} {what : String} {id : Id}
    (h : otherCustomer customerId target what = .ok id) : id ≠ customerId := by
  simp only [otherCustomer, demand_eq_ok, Option.filter_eq_some_iff, decide_eq_true_eq] at h
  exact h.2

theorem reassignServers_eq_ok {target : Id}
    (h : reassignServers t orgId customerId target = .ok t') :
    t' = { t with servers := t.servers.map (moveServer orgId customerId target) } := by
  simp only [reassignServers, bind_eq_ok, require_eq_ok, pure_eq_ok] at h
  obtain ⟨-, -, rfl⟩ := h
  rfl

theorem reassignPolicies_eq_ok {target : Id}
    (h : reassignPolicies t orgId customerId target = .ok t') :
    (customerExists t (some target) = true ∨
      ∀ p ∈ t.accessPolicies, isPolicyOf orgId customerId p = false) ∧
    t' = { t with
      accessPolicies :=
        t.accessPolicies.update (movePolicy orgId customerId target) movePolicy_id } := by
  simp only [reassignPolicies, bind_eq_ok, require_eq_ok, pure_eq_ok] at h
  obtain ⟨-, hexists, rfl⟩ := h
  exact ⟨hexists, rfl⟩

theorem handleServers_eq_ok (h : handleServers t orgId customerId options scope = .ok t') :
    ∃ servers, t' = { t with servers } := by
  unfold handleServers at h
  split at h
  · obtain rfl := Except.ok.inj h
    exact ⟨t.servers, rfl⟩
  · split at h
    · simp only [bind_eq_ok] at h
      obtain ⟨target, -, -, -, h⟩ := h
      exact ⟨_, reassignServers_eq_ok h⟩
    · obtain rfl := Except.ok.inj h
      exact ⟨t.servers, rfl⟩
    · cases h

theorem handlePolicies_eq_ok (h : handlePolicies t orgId customerId options scope = .ok t') :
    t' = deletePolicies t orgId customerId ∨
    (∃ target, target ≠ customerId ∧ (t.customer orgId scope target).isSome ∧
      t' = { t with
        accessPolicies :=
          t.accessPolicies.update (movePolicy orgId customerId target) movePolicy_id }) ∨
    t' = switchOffPolicies t orgId customerId := by
  unfold handlePolicies at h
  split at h
  · exact .inl (Except.ok.inj h).symm
  · simp only [bind_eq_ok, findTarget, require_eq_ok] at h
    obtain ⟨target, hother, -, hfound, h⟩ := h
    exact .inr (.inl ⟨target, otherCustomer_eq_ok hother, hfound,
      (reassignPolicies_eq_ok h).2⟩)
  · exact .inr (.inr (Except.ok.inj h).symm)

theorem deleteCustomerRow_eq_ok (h : deleteCustomerRow t customerId = .ok t') :
    t' = { t with
      customers := t.customers.filter fun c ↦ c.id ≠ customerId
      servers := t.servers.filter fun s ↦ s.customerId ≠ customerId
      userCustomerScopes := t.userCustomerScopes.filter fun s ↦ s.customerId ≠ customerId
      groupCustomerScopes := t.groupCustomerScopes.filter fun s ↦ s.customerId ≠ customerId
      accessPolicies := t.accessPolicies.update (setNull customerId) setNull_id } := by
  simp only [deleteCustomerRow, bind_eq_ok, require_eq_ok, pure_eq_ok] at h
  obtain ⟨-, -, rfl⟩ := h
  rfl

/-- `deleteCustomer` moves servers at most, or has handled the policies and
perhaps deleted the row. -/
theorem deleteCustomer_cases (t : Tenancy) (orgId customerId : Id)
    (options : DeleteCustomerOptions) (scope : Scope) : ∃ servers,
    (deleteCustomer t orgId customerId options scope).1 = { t with servers } ∨
    ∃ t₂, handlePolicies { t with servers } orgId customerId options scope = .ok t₂ ∧
      ((deleteCustomer t orgId customerId options scope).1 = t₂ ∨
        deleteCustomerRow t₂ customerId =
          .ok (deleteCustomer t orgId customerId options scope).1) := by
  unfold deleteCustomer
  cases hc : t.customer orgId scope customerId with
  | none => exact ⟨t.servers, .inl rfl⟩
  | some c =>
    cases hs : handleServers t orgId customerId options scope with
    | error e => exact ⟨t.servers, .inl rfl⟩
    | ok t₁ =>
      obtain ⟨servers, rfl⟩ := handleServers_eq_ok hs
      refine ⟨servers, ?_⟩
      cases hp : handlePolicies { t with servers } orgId customerId options scope with
      | error e => exact .inl (by simp only [hp])
      | ok t₂ =>
        refine .inr ⟨t₂, rfl, ?_⟩
        cases hr : deleteCustomerRow t₂ customerId with
        | error e => exact .inl (by simp only [hp, hr])
        | ok t₃ => exact .inr (by simp only [hp, hr])

theorem deleteCustomer_roles :
    (deleteCustomer t orgId customerId options scope).1.roles = t.roles := by
  obtain ⟨servers, ht' | ⟨t₂, hpolicies, hdone⟩⟩ := deleteCustomer_cases t orgId
    customerId options scope
  · rw [ht']
  · have hroles : t₂.roles = t.roles := by
      rcases handlePolicies_eq_ok hpolicies with rfl | ⟨_, -, -, rfl⟩ | rfl <;> rfl
    rcases hdone with ht' | hrow
    · rw [ht', hroles]
    · rw [deleteCustomerRow_eq_ok hrow, hroles]

end

end Shellius
