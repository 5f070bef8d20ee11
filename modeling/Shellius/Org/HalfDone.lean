import Shellius.Customers.Delete
import Shellius.Users.Accounts

/-!
# Edits that are half done

`updateUser` and `deleteCustomer` write to several tables, each with a statement of its own, and not
everything that may go wrong is found out before the first of them.  What has been written when an
edit is refused stays written.

`updateUser` sets the groups of a user before the row, and the database may refuse the new e-mail.
`deleteCustomer` moves the servers of a customer before it looks for the customer that is to take
the policies.  There is nothing else that is left half done.
-/

namespace Shellius.HalfDone

open Lib

/-- The same rows in every table; the memberships have no order. -/
structure SameRows (t t' : Tenancy) : Prop where
  others : { t' with groupMemberships := t.groupMemberships } = t
  groupMemberships : ∀ m, m ∈ t'.groupMemberships ↔ m ∈ t.groupMemberships

theorem SameRows.refl (t : Tenancy) : SameRows t t := ⟨rfl, fun _ ↦ Iff.rfl⟩

section

variable {rules : TextRules} {t : Tenancy} {orgId userId : Id} {data : UserData}
  {actor : Option Actor} {ids : List Id} {groups : List ScopedGroup}

/-! ## Users -/

end

/-! ## Customers -/

section

variable {t t' : Tenancy} {orgId customerId : Id} {options : DeleteCustomerOptions} {scope : Scope}

/-- A deletion that has servers to move and where to, and policies to move and nowhere to. -/
structure DeleteTorn (t : Tenancy) (orgId customerId : Id) (options : DeleteCustomerOptions)
    (scope : Scope) (target : Id) (s : Server) : Prop where
  found : (t.customer orgId scope customerId).isSome = true
  servers : options.servers = some .reassign
  policies : options.policies = .reassign
  goal : truthy options.targetCustomerId = some target
  other : target ≠ customerId
  goalFound : (t.customer orgId scope target).isSome = true
  mem : s ∈ t.servers
  own : s.customerId = customerId ∧ s.orgId = orgId
  nowhere : ∀ id, truthy options.policiesTarget = some id → id ≠ customerId →
    t.customer orgId scope id = none

theorem otherCustomer_eq_ok_iff {target : Option Id} {what : String} {id : Id} :
    otherCustomer customerId target what = .ok id ↔ truthy target = some id ∧ id ≠ customerId := by
  rw [otherCustomer, demand_eq_ok, Option.filter_eq_some_iff, decide_eq_true_eq]

theorem customerExists_of_customer {id : Id} (h : (t.customer orgId scope id).isSome = true) :
    customerExists t (some id) = true := by
  obtain ⟨c, hc⟩ := Option.isSome_iff_exists.mp h
  obtain ⟨hmem, hid, -, -⟩ := Tenancy.customer_eq_some.mp hc
  exact Option.isSome_iff_exists.mpr ⟨c, Keyed.find_eq_some.mpr ⟨hmem, hid⟩⟩

theorem handlePolicies_isOk_iff : (∃ t', handlePolicies t orgId customerId options scope = .ok t') ↔
    (options.policies = .reassign → ∃ id, truthy options.policiesTarget = some id ∧
      id ≠ customerId ∧ (t.customer orgId scope id).isSome = true) := by
  unfold handlePolicies
  cases options.policies with
  | delete => exact iff_of_true ⟨_, rfl⟩ nofun
  | orgwide => exact iff_of_true ⟨_, rfl⟩ nofun
  | reassign =>
    simp only [bind_eq_ok, otherCustomer_eq_ok_iff, findTarget, require_eq_ok, reassignPolicies,
      pure_eq_ok, forall_const]
    constructor
    · rintro ⟨-, id, ⟨hid, hne⟩, -, hfound, -⟩
      exact ⟨id, hid, hne, hfound⟩
    · rintro ⟨id, hid, hne, hfound⟩
      exact ⟨_, id, ⟨hid, hne⟩, ⟨⟩, hfound, ⟨⟩, .inl (customerExists_of_customer hfound), rfl⟩

section

variable {target : Id} {s : Server}

theorem DeleteTorn.handleServers (h : DeleteTorn t orgId customerId options scope target s) :
    handleServers t orgId customerId options scope =
      .ok { t with servers := t.servers.map (moveServer orgId customerId target) } := by
  have hcount : serverCount t customerId ≠ 0 := by
    intro hzero
    have hempty := List.length_eq_zero_iff.mp hzero
    have hs : s ∈ t.servers.filter fun s ↦ s.customerId = customerId :=
      List.mem_filter.mpr ⟨h.mem, decide_eq_true h.own.1⟩
    rw [hempty] at hs
    exact List.not_mem_nil hs
  rw [Shellius.handleServers, if_neg hcount, h.servers]
  simp only [bind_eq_ok, otherCustomer_eq_ok_iff, findTarget, require_eq_ok, reassignServers,
    pure_eq_ok]
  exact ⟨target, ⟨h.goal, h.other⟩, ⟨⟩, h.goalFound, ⟨⟩,
    .inl (customerExists_of_customer h.goalFound), rfl⟩

theorem DeleteTorn.handlePolicies (h : DeleteTorn t orgId customerId options scope target s)
    (servers : List Server) (t' : Tenancy) :
    handlePolicies { t with servers } orgId customerId options scope ≠ .ok t' := by
  intro hok
  obtain ⟨id, hid, hne, hfound⟩ := handlePolicies_isOk_iff.mp ⟨t', hok⟩ h.policies
  rw [show Tenancy.customer { t with servers } orgId scope id = t.customer orgId scope id from rfl,
    h.nowhere id hid hne] at hfound
  cases hfound

end

end

/-! ## Both -/

def twoUsers : Tenancy where
  users := { rows := [{ id := "u1", orgId := "o", email := "a@x.test" },
    { id := "u2", orgId := "o", email := "b@x.test" }] }
  groups := { rows := [{ id := "g", orgId := "o" }] }

end Shellius.HalfDone
