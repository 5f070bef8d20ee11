import Shellius.Customers.Delete
import Shellius.Lib.Pool

/-!
# Deleting a customer while policies are written

Any number of calls of `deleteCustomer`, `create` and `update` in one
organization, each of their queries on its own.  A policy without a customer
applies to every customer, so `deleteCustomer` deletes, moves or switches off the
policies of a customer before the foreign key takes the customer from them.
Between the two another call may put an active policy on the customer again.
-/

namespace Shellius.CustomerRace

open Lib

/-! ## The program -/

/-- The tables, and the policies that lost their customer with its row and that
no update has since given no customer or switched on. -/
structure PolicyStore where
  tables : Tenancy
  orphaned : List Id := []

inductive Write where
  | create (data : PolicyData) (scope : Scope) (id : Id)
  | update (id : Id) (data : PolicyData) (scope : Scope)

/-- What a call is asked for. -/
inductive Request where
  | deleteCustomer (customerId : Id) (options : DeleteCustomerOptions) (scope : Scope)
  | policy (w : Write)

/-- How far a deletion has come, before it deletes the row. -/
inductive DeletePhase where
  | find
  | serverTarget (target : Id)
  | servers (target : Id)
  | policyTarget (target : Id)
  | policies (target : Option Id)

/-- How far the checks of a write have come; `refs` are the queries of
`assertPolicyRefs`, sent at once, that have not been answered. -/
inductive CheckPhase where
  | find
  | customer
  | refs (pending : List SubjectType)

inductive Call where
  | deleting (customerId : Id) (options : DeleteCustomerOptions) (scope : Scope)
      (phase : DeletePhase)
  | removing (customerId : Id)
  | checking (w : Write) (phase : CheckPhase)
  | writing (w : Write)

/-- The next query of a call; of the queries on references any may be next. -/
inductive Query where
  | next
  | refs (type : SubjectType)

def start : Request → Call
  | .deleteCustomer customerId options scope => .deleting customerId options scope .find
  | .policy w => .checking w .find

/-! ### Deletions -/

/-- What comes after the servers are handled. -/
def policyPhase (customerId : Id) (options : DeleteCustomerOptions) : Option DeletePhase :=
  match options.policies with
  | .delete | .orgwide => some (.policies none)
  | .reassign => (otherCustomer customerId options.policiesTarget "policies").toOption.map
      .policyTarget

/-- What comes after the customer was found. -/
def serverPhase (t : Tenancy) (customerId : Id) (options : DeleteCustomerOptions) :
    Option DeletePhase :=
  if serverCount t customerId = 0 then policyPhase customerId options
  else
    match options.servers with
    | some .reassign => (otherCustomer customerId options.targetCustomerId "servers").toOption.map
        .serverTarget
    | some .delete => policyPhase customerId options
    | none => none

/-- The tables after a query of a deletion, and what comes next. -/
def deleteStep (orgId : Id) (t : Tenancy) (customerId : Id) (options : DeleteCustomerOptions)
    (scope : Scope) : DeletePhase → Tenancy × Option Call
  | .find =>
    (t, ((t.customer orgId scope customerId).bind fun _ ↦ serverPhase t customerId options).map
      (.deleting customerId options scope))
  | .serverTarget target =>
    (t, (findTarget t orgId scope target "Target customer not found").toOption.map fun _ ↦
      .deleting customerId options scope (.servers target))
  | .servers target =>
    match reassignServers t orgId customerId target with
    | .error _ => (t, none)
    | .ok t' => (t', (policyPhase customerId options).map (.deleting customerId options scope))
  | .policyTarget target =>
    (t, (findTarget t orgId scope target "Target customer not found for policies").toOption.map
      fun _ ↦ .deleting customerId options scope (.policies (some target)))
  | .policies none =>
    if options.policies = .delete then
      (deletePolicies t orgId customerId, some (.removing customerId))
    else (switchOffPolicies t orgId customerId, some (.removing customerId))
  | .policies (some target) =>
    match reassignPolicies t orgId customerId target with
    | .error _ => (t, none)
    | .ok t' => (t', some (.removing customerId))

def remove (s : PolicyStore) (customerId : Id) : PolicyStore :=
  match deleteCustomerRow s.tables customerId with
  | .error _ => s
  | .ok t => ⟨t, s.orphaned ++
      (s.tables.accessPolicies.rows.filter fun p ↦ p.customerId = some customerId).map
        AccessPolicy.id⟩

/-! ### Writes of policies -/

def Write.data : Write → PolicyData
  | .create data _ _ | .update _ data _ => data

def Write.scope : Write → Scope
  | .create _ scope _ | .update _ _ scope => scope

def Write.customerId : Write → Option Id
  | .create data _ _ => truthy data.customerId.join
  | .update _ data _ => data.customerId.join

/-- What a write asks for before the customer: a complete body, or the policy. -/
def Write.canBegin (orgId : Id) (t : Tenancy) : Write → Bool
  | .create data _ id => (newPolicy orgId id data).toOption.isSome
  | .update id _ _ => (t.policy orgId id).isSome

def checkStep (orgId : Id) (t : Tenancy) (w : Write) : CheckPhase → Query → Option (Option Call)
  | .find, .next => some (if w.canBegin orgId t then some (.checking w .customer) else none)
  | .customer, .next =>
    some ((checkPolicyCustomer t orgId w.scope w.customerId).toOption.map fun _ ↦
      .checking w (.refs [.role, .user, .group]))
  | .refs pending, .refs type =>
    if type ∈ pending then
      some ((checkRefs t orgId w.data type).toOption.map fun _ ↦
        if pending.erase type = [] then .writing w else .checking w (.refs (pending.erase type)))
    else none
  | _, _ => none

/-- The body takes the customer from a policy or switches it on. -/
def opens (data : PolicyData) : Bool :=
  data.customerId.map truthy = some none ∨ data.isActive = some true

def commit (orgId : Id) (s : PolicyStore) : Write → PolicyStore
  | .create data _ id =>
    match newPolicy orgId id data >>= insertPolicy s.tables with
    | .error _ => s
    | .ok t => ⟨t, s.orphaned.filter fun i ↦ i ≠ id⟩
  | .update id data _ =>
    match writePolicy s.tables id data with
    | .error _ => s
    | .ok t => ⟨t, if opens data then s.orphaned.filter fun i ↦ i ≠ id else s.orphaned⟩

/-! ### Calls -/

def act (orgId : Id) (s : PolicyStore) : Call → Query → Option (PolicyStore × Option Call)
  | .deleting customerId options scope phase, .next =>
    let r := deleteStep orgId s.tables customerId options scope phase
    some (⟨r.1, s.orphaned⟩, r.2)
  | .removing customerId, .next => some (remove s customerId, none)
  | .checking w phase, e => (checkStep orgId s.tables w phase e).map fun k ↦ (s, k)
  | .writing w, .next => some (commit orgId s w, none)
  | _, _ => none

def program (orgId : Id) : Program PolicyStore Request Call Query Empty where
  start := start
  act _ := act orgId
  env _ d := d.elim

/-! ## The property -/

/-- No policy that lost its customer is active, unless an update took care of
that. -/
def NoneWidened (s : PolicyStore) : Prop :=
  ∀ p ∈ s.tables.accessPolicies, p.id ∈ s.orphaned → p.customerId = none → p.isActive = false

def Puts (orgId : Id) (s : PolicyStore) (customerId : Id) : Call → Prop
  | .writing (.create data _ id) =>
    ∃ p, newPolicy orgId id data = .ok p ∧ p.isActive = true ∧ p.customerId = some customerId
  | .writing (.update id data _) =>
    ∃ p ∈ s.tables.accessPolicies, p.id = id ∧ (data.apply p).isActive = true ∧
      (data.apply p).customerId = some customerId
  | .deleting source _ _ (.policies (some target)) =>
    target = customerId ∧ ∃ p ∈ s.tables.accessPolicies, isPolicyOf orgId source p = true ∧
      p.isActive = true
  | _ => False

/-- A deletion of the customer has handled its policies and not yet deleted the
row. -/
def InWindow (customerId : Id) (p : Pool PolicyStore Call) : Prop :=
  ∃ i, p.calls i = some (.removing customerId)

def KeepsOff (orgId : Id) (p : Pool PolicyStore Call) : Event Request Query Empty → Prop
  | .act i _ => ∀ k, p.calls i = some k → ∀ customerId, Puts orgId p.store customerId k →
      ¬ InWindow customerId p
  | _ => True

/-- Every policy is on a customer of its organization, if on any. -/
def CustomersValid (t : Tenancy) : Prop :=
  ∀ p ∈ t.accessPolicies, ∀ c, p.customerId = some c →
    ∃ row ∈ t.customers, row.id = c ∧ row.orgId = p.orgId

/-! ## What the calls in flight know -/

/-- The customer is of the organization, while it is there. -/
def Within (orgId : Id) (t : Tenancy) (customerId : Id) : Prop :=
  ∀ row ∈ t.customers, row.id = customerId → row.orgId = orgId

def Write.PolicyWithin (orgId : Id) (t : Tenancy) : Write → Prop
  | .create _ _ _ => True
  | .update id _ _ => ∀ p ∈ t.accessPolicies, p.id = id → p.orgId = orgId

/-- A write puts the policy on a customer of the organization. -/
def Write.CustomerWithin (orgId : Id) (t : Tenancy) (w : Write) : Prop :=
  ∀ c, truthy w.data.customerId.join = some c → Within orgId t c

/-- What a call has found out and nobody else can spoil, except that `KeepsOff`
must see to it that the policies of a customer stay off once they are. -/
def Knows (orgId : Id) (s : PolicyStore) : Call → Prop
  | .deleting _ _ _ .find => True
  | .deleting customerId _ _ (.policyTarget target) =>
    Within orgId s.tables customerId ∧ target ≠ customerId
  | .deleting customerId _ _ (.policies (some target)) =>
    Within orgId s.tables customerId ∧ target ≠ customerId ∧ Within orgId s.tables target
  | .deleting customerId _ _ _ => Within orgId s.tables customerId
  | .removing customerId =>
    ∀ p ∈ s.tables.accessPolicies, p.customerId = some customerId → p.isActive = false
  | .checking _ .find => True
  | .checking w .customer => w.PolicyWithin orgId s.tables
  | .checking w (.refs _) => w.PolicyWithin orgId s.tables ∧ w.CustomerWithin orgId s.tables
  | .writing w => w.PolicyWithin orgId s.tables ∧ w.CustomerWithin orgId s.tables

section

variable {orgId : Id} {s s' : PolicyStore} {k : Call} {k' : Option Call} {e : Query} {t t' : Tenancy}

/-- What any query leaves to the other calls. -/
structure Frame (orgId : Id) (s : PolicyStore) (k : Call) (s' : PolicyStore) : Prop where
  customers : ∀ row ∈ s'.tables.customers, row ∈ s.tables.customers
  owner : ∀ p' ∈ s'.tables.accessPolicies, p'.orgId = orgId ∨
    ∃ p ∈ s.tables.accessPolicies, p.id = p'.id ∧ p.orgId = p'.orgId
  active : ∀ p' ∈ s'.tables.accessPolicies, ∀ c, p'.isActive = true → p'.customerId = some c →
    Puts orgId s c k ∨ ∃ p ∈ s.tables.accessPolicies, p.isActive = true ∧ p.customerId = some c

theorem Frame.within {c : Id} (hf : Frame orgId s k s') (h : Within orgId s.tables c) :
    Within orgId s'.tables c := fun row hrow ↦ h row (hf.customers row hrow)

theorem Frame.policyWithin {w : Write} (hf : Frame orgId s k s')
    (h : w.PolicyWithin orgId s.tables) : w.PolicyWithin orgId s'.tables := by
  cases w with
  | create data scope id => trivial
  | update id data scope =>
    intro p' hp' hid
    rcases hf.owner p' hp' with horg | ⟨p, hp, hsame, horg⟩
    · exact horg
    · rw [← horg]
      exact h p hp (hsame.trans hid)

theorem Frame.customerWithin {w : Write} (hf : Frame orgId s k s')
    (h : w.CustomerWithin orgId s.tables) : w.CustomerWithin orgId s'.tables :=
  fun c hc ↦ hf.within (h c hc)

theorem Frame.knows {l : Call} (hf : Frame orgId s k s') (h : Knows orgId s l)
    (hoff : ∀ c, l = .removing c → ¬ Puts orgId s c k) : Knows orgId s' l := by
  cases l with
  | deleting customerId options scope phase =>
    cases phase with
    | find => trivial
    | serverTarget target => exact hf.within h
    | servers target => exact hf.within h
    | policyTarget target => exact ⟨hf.within h.1, h.2⟩
    | policies target =>
      cases target with
      | none => exact hf.within h
      | some target => exact ⟨hf.within h.1, h.2.1, hf.within h.2.2⟩
  | removing customerId =>
    intro p' hp' hc
    refine Bool.eq_false_iff.mpr fun hactive ↦ ?_
    rcases hf.active p' hp' customerId hactive hc with hputs | ⟨p, hp, hactive, hc⟩
    · exact hoff customerId rfl hputs
    · rw [h p hp hc] at hactive
      cases hactive
  | checking w phase =>
    cases phase with
    | find => trivial
    | customer => exact hf.policyWithin h
    | refs pending => exact ⟨hf.policyWithin h.1, hf.customerWithin h.2⟩
  | writing w => exact ⟨hf.policyWithin h.1, hf.customerWithin h.2⟩

theorem Frame.of_rows (hc : ∀ row ∈ s'.tables.customers, row ∈ s.tables.customers)
    (hp : ∀ p' ∈ s'.tables.accessPolicies, ∃ p ∈ s.tables.accessPolicies, p.id = p'.id ∧
      p.orgId = p'.orgId ∧ ∀ c, p'.isActive = true → p'.customerId = some c →
        Puts orgId s c k ∨ p.isActive = true ∧ p.customerId = some c) :
    Frame orgId s k s' where
  customers := hc
  owner p' hp' := by
    obtain ⟨p, hp, hid, horg, -⟩ := hp p' hp'
    exact .inr ⟨p, hp, hid, horg⟩
  active p' hp' c hactive hc := by
    obtain ⟨p, hp, -, -, h⟩ := hp p' hp'
    exact (h c hactive hc).imp_right fun h ↦ ⟨p, hp, h⟩

theorem Frame.of_policies_eq (hc : s'.tables.customers = s.tables.customers)
    (hp : s'.tables.accessPolicies = s.tables.accessPolicies) : Frame orgId s k s' := by
  refine .of_rows (fun row hrow ↦ hc ▸ hrow) fun p' hp' ↦ ?_
  exact ⟨p', hp ▸ hp', rfl, rfl, fun c hactive hc ↦ .inr ⟨hactive, hc⟩⟩

/-! ### The invariant of the tables -/

/-- The policies are on customers of their organizations, and none was widened. -/
structure Sane (s : PolicyStore) : Prop where
  customers : CustomersValid s.tables
  widened : NoneWidened s

theorem Sane.of_policies_eq (h : Sane s) (hc : s'.tables.customers = s.tables.customers)
    (hp : s'.tables.accessPolicies = s.tables.accessPolicies) (ho : s'.orphaned = s.orphaned) :
    Sane s' where
  customers p hp' := by
    rw [hc]
    exact h.customers p (hp ▸ hp')
  widened p hp' hid := h.widened p (hp ▸ hp') (ho ▸ hid)

theorem isPolicyOf_of_valid {customerId : Id} {p : AccessPolicy} (hv : CustomersValid t)
    (hw : Within orgId t customerId) (hp : p ∈ t.accessPolicies)
    (hc : p.customerId = some customerId) : isPolicyOf orgId customerId p = true := by
  obtain ⟨row, hrow, hid, horg⟩ := hv p hp customerId hc
  exact decide_eq_true ⟨horg ▸ hw row hrow hid, hc⟩

/-! ### Statements -/

variable {customerId target id : Id} {options : DeleteCustomerOptions} {scope : Scope}
  {data : PolicyData}

theorem deletePolicies_sane (h : Sane s) (hw : Within orgId s.tables customerId) :
    Sane ⟨deletePolicies s.tables orgId customerId, s.orphaned⟩ ∧
      Frame orgId s k ⟨deletePolicies s.tables orgId customerId, s.orphaned⟩ ∧
      Knows orgId ⟨deletePolicies s.tables orgId customerId, s.orphaned⟩ (.removing customerId) := by
  refine ⟨⟨?_, ?_⟩, .of_rows (fun row hrow ↦ hrow) fun p hp ↦ ?_, fun p hp hc ↦ ?_⟩
  · exact fun p hp ↦ h.customers p (Keyed.mem_filter.mp hp).1
  · exact fun p hp ↦ h.widened p (Keyed.mem_filter.mp hp).1
  · exact ⟨p, (Keyed.mem_filter.mp hp).1, rfl, rfl, fun c hactive hc ↦ .inr ⟨hactive, hc⟩⟩
  · obtain ⟨hp, hkept⟩ := Keyed.mem_filter.mp hp
    rw [isPolicyOf_of_valid h.customers hw hp hc] at hkept
    cases hkept

theorem switchOffPolicies_sane (h : Sane s) (hw : Within orgId s.tables customerId) :
    Sane ⟨switchOffPolicies s.tables orgId customerId, s.orphaned⟩ ∧
      Frame orgId s k ⟨switchOffPolicies s.tables orgId customerId, s.orphaned⟩ ∧
      Knows orgId ⟨switchOffPolicies s.tables orgId customerId, s.orphaned⟩
        (.removing customerId) := by
  have hactive : ∀ p, (switchOff orgId customerId p).isActive = true → p.isActive = true := by
    intro p hp
    simp only [switchOff] at hp
    split at hp
    · cases hp
    · exact hp
  refine ⟨⟨?_, ?_⟩, .of_rows (fun row hrow ↦ hrow) ?_, ?_⟩
  · intro p' hp'
    obtain ⟨p, hp, rfl⟩ := (Keyed.mem_update switchOff_id).mp hp'
    exact h.customers p hp
  · intro p' hp' hid hc
    obtain ⟨p, hp, rfl⟩ := (Keyed.mem_update switchOff_id).mp hp'
    refine Bool.eq_false_iff.mpr fun hon ↦ ?_
    have hoff := h.widened p hp hid hc
    rw [hactive p hon] at hoff
    cases hoff
  · intro p' hp'
    obtain ⟨p, hp, rfl⟩ := (Keyed.mem_update switchOff_id).mp hp'
    exact ⟨p, hp, rfl, rfl, fun c hon hc ↦ .inr ⟨hactive p hon, hc⟩⟩
  · intro p' hp' hc
    obtain ⟨p, hp, rfl⟩ := (Keyed.mem_update switchOff_id).mp hp'
    simp only [switchOff]
    rw [if_pos (isPolicyOf_of_valid h.customers hw hp hc)]

theorem reassignPolicies_sane (h : Sane s)
    (hk : k = .deleting customerId options scope (.policies (some target)))
    (hknows : Knows orgId s k) (hs : reassignPolicies s.tables orgId customerId target = .ok t') :
    Sane ⟨t', s.orphaned⟩ ∧ Frame orgId s k ⟨t', s.orphaned⟩ ∧
      Knows orgId ⟨t', s.orphaned⟩ (.removing customerId) := by
  subst hk
  obtain ⟨hw, hne, htarget⟩ := hknows
  obtain ⟨hexists, rfl⟩ := reassignPolicies_eq_ok hs
  have hmoved : ∀ p ∈ s.tables.accessPolicies, isPolicyOf orgId customerId p = true ∧
      (movePolicy orgId customerId target p).customerId = some target ∨
      (movePolicy orgId customerId target p).customerId = p.customerId ∧
        p.customerId ≠ some customerId := by
    intro p hp
    by_cases hmoves : isPolicyOf orgId customerId p = true
    · exact .inl ⟨hmoves, if_pos hmoves⟩
    · exact .inr ⟨if_neg hmoves, fun hc ↦ hmoves (isPolicyOf_of_valid h.customers hw hp hc)⟩
  refine ⟨⟨?_, ?_⟩, .of_rows (fun row hrow ↦ hrow) ?_, ?_⟩
  · intro p' hp' c hc
    obtain ⟨p, hp, rfl⟩ := (Keyed.mem_update movePolicy_id).mp hp'
    rcases hmoved p hp with ⟨hmoves, hto⟩ | ⟨hstays, -⟩
    · obtain rfl := Option.some.inj (hto.symm.trans hc)
      rcases hexists with hexists | hnone
      · obtain ⟨row, hrow⟩ := Option.isSome_iff_exists.mp hexists
        obtain ⟨hrow, hid⟩ := Keyed.find_eq_some.mp hrow
        exact ⟨row, hrow, hid, (htarget row hrow hid).trans (of_decide_eq_true hmoves).1.symm⟩
      · rw [hnone p hp] at hmoves
        cases hmoves
    · exact h.customers p hp c (hstays.symm.trans hc)
  · intro p' hp' hid hc
    obtain ⟨p, hp, rfl⟩ := (Keyed.mem_update movePolicy_id).mp hp'
    rcases hmoved p hp with ⟨-, hto⟩ | ⟨hstays, -⟩
    · cases hto.symm.trans hc
    · exact h.widened p hp hid (hstays.symm.trans hc)
  · intro p' hp'
    obtain ⟨p, hp, rfl⟩ := (Keyed.mem_update movePolicy_id).mp hp'
    refine ⟨p, hp, rfl, rfl, fun c hon hc ↦ ?_⟩
    rcases hmoved p hp with ⟨hmoves, hto⟩ | ⟨hstays, -⟩
    · exact .inl ⟨Option.some.inj (hto.symm.trans hc), p, hp, hmoves, hon⟩
    · exact .inr ⟨hon, hstays.symm.trans hc⟩
  · intro p' hp' hc
    obtain ⟨p, hp, rfl⟩ := (Keyed.mem_update movePolicy_id).mp hp'
    rcases hmoved p hp with ⟨-, hto⟩ | ⟨hstays, hother⟩
    · exact absurd (Option.some.inj (hto.symm.trans hc)) hne
    · exact absurd (hstays.symm.trans hc) hother

theorem remove_sane (h : Sane s) (hknows : Knows orgId s (.removing customerId)) :
    Sane (remove s customerId) ∧ Frame orgId s k (remove s customerId) := by
  unfold remove
  split
  · exact ⟨h, .of_policies_eq rfl rfl⟩
  · rename_i t' ht'
    obtain rfl := deleteCustomerRow_eq_ok ht'
    refine ⟨⟨?_, ?_⟩, .of_rows (fun row hrow ↦ (Keyed.mem_filter.mp hrow).1) ?_⟩
    · intro p' hp' c hc
      obtain ⟨p, hp, rfl⟩ := (Keyed.mem_update setNull_id).mp hp'
      simp only [setNull] at hc
      split at hc
      · cases hc
      · rename_i hother
        obtain ⟨row, hrow, hid, horg⟩ := h.customers p hp c hc
        refine ⟨row, Keyed.mem_filter.mpr ⟨hrow, decide_eq_true ?_⟩, hid, horg⟩
        rintro rfl
        exact hother (hc.trans (congrArg some hid.symm))
    · intro p' hp' hid hc
      obtain ⟨p, hp, rfl⟩ := (Keyed.mem_update setNull_id).mp hp'
      change p.isActive = false
      by_cases hwas : p.customerId = some customerId
      · exact hknows p hp hwas
      · simp only [setNull, if_neg hwas] at hc
        refine h.widened p hp ?_ hc
        rcases List.mem_append.mp hid with hid | hid
        · exact hid
        · obtain ⟨q, hq, hsame⟩ := List.mem_map.mp hid
          obtain ⟨hq, hqc⟩ := List.mem_filter.mp hq
          obtain rfl : q = p := Keyed.ext hq hp hsame
          exact absurd (of_decide_eq_true hqc) hwas
    · intro p' hp'
      obtain ⟨p, hp, rfl⟩ := (Keyed.mem_update setNull_id).mp hp'
      refine ⟨p, hp, rfl, rfl, fun c hon hc ↦ .inr ⟨hon, ?_⟩⟩
      simp only [setNull] at hc
      split at hc
      · cases hc
      · exact hc

theorem valid_of_customerExists {c : Id} (h : customerExists t (some c) = true)
    (hw : Within orgId t c) : ∃ row ∈ t.customers, row.id = c ∧ row.orgId = orgId := by
  obtain ⟨row, hrow⟩ := Option.isSome_iff_exists.mp h
  obtain ⟨hrow, hid⟩ := Keyed.find_eq_some.mp hrow
  exact ⟨row, hrow, hid, hw row hrow hid⟩

theorem commit_create_sane (h : Sane s)
    (hw : (Write.create data scope id).CustomerWithin orgId s.tables) :
    Sane (commit orgId s (.create data scope id)) ∧
      Frame orgId s (.writing (.create data scope id)) (commit orgId s (.create data scope id)) := by
  unfold commit
  dsimp only
  split
  · exact ⟨h, .of_policies_eq rfl rfl⟩
  · rename_i t' ht'
    obtain ⟨p, hp, hinsert⟩ := bind_eq_ok.mp ht'
    obtain ⟨rfl, horg, hcustomer, -⟩ := newPolicy_eq_ok hp
    obtain ⟨hexists, hfresh, rfl⟩ := insertPolicy_eq_ok hinsert
    refine ⟨⟨fun p' hp' c hc ↦ ?_, fun p' hp' hid hc ↦ ?_⟩, ⟨fun row hrow ↦ hrow, fun p' hp' ↦ ?_,
      fun p' hp' c hon hc ↦ ?_⟩⟩
    · rcases (Keyed.mem_insert hfresh).mp hp' with hold | rfl
      · exact h.customers p' hold c hc
      · rw [hc] at hexists
        obtain ⟨row, hrow, hid, hrowOrg⟩ :=
          valid_of_customerExists hexists (hw c (hcustomer.symm.trans hc))
        exact ⟨row, hrow, hid, hrowOrg.trans horg.symm⟩
    · obtain ⟨hid, hne⟩ := List.mem_filter.mp hid
      rcases (Keyed.mem_insert hfresh).mp hp' with hold | rfl
      · exact h.widened p' hold hid hc
      · exact absurd rfl (of_decide_eq_true hne)
    · rcases (Keyed.mem_insert hfresh).mp hp' with hold | rfl
      · exact .inr ⟨p', hold, rfl, rfl⟩
      · exact .inl horg
    · rcases (Keyed.mem_insert hfresh).mp hp' with hold | rfl
      · exact .inr ⟨p', hold, hon, hc⟩
      · exact .inl ⟨p', hp, hon, hc⟩

theorem commit_update_sane (h : Sane s)
    (hknows : Knows orgId s (.writing (.update id data scope))) :
    Sane (commit orgId s (.update id data scope)) ∧
      Frame orgId s (.writing (.update id data scope)) (commit orgId s (.update id data scope)) := by
  obtain ⟨hpolicy, hcustomer⟩ := hknows
  unfold commit
  dsimp only
  split
  · exact ⟨h, .of_policies_eq rfl rfl⟩
  · rename_i t' ht'
    obtain ⟨-, hexists, rfl⟩ := writePolicy_eq_ok ht'
    refine ⟨⟨?_, ?_⟩, .of_rows (fun row hrow ↦ hrow) ?_⟩
    · intro p' hp' c hc
      obtain ⟨p, hp, rfl⟩ := (Keyed.mem_update editPolicy_id).mp hp'
      rw [editPolicy_orgId]
      by_cases hid : p.id = id
      · rw [editPolicy, if_pos hid] at hc
        cases hd : data.customerId with
        | none =>
          simp only [PolicyData.apply, hd, Option.map_none, Option.getD_none] at hc
          exact h.customers p hp c hc
        | some given =>
          simp only [PolicyData.apply, hd, Option.map_some, Option.getD_some] at hc
          have hjoin : truthy data.customerId.join = some c := by rw [hd]; exact hc
          rw [hjoin] at hexists
          obtain ⟨row, hrow, hid', hrowOrg⟩ := valid_of_customerExists hexists (hcustomer c hjoin)
          exact ⟨row, hrow, hid', hrowOrg.trans (hpolicy p hp hid).symm⟩
      · rw [editPolicy, if_neg hid] at hc
        exact h.customers p hp c hc
    · intro p' hp' hid' hc
      obtain ⟨p, hp, rfl⟩ := (Keyed.mem_update editPolicy_id).mp hp'
      rw [editPolicy_id] at hid'
      by_cases hid : p.id = id
      · rw [editPolicy, if_pos hid] at hc ⊢
        cases hopens : opens data with
        | true =>
          rw [hopens, if_pos rfl] at hid'
          exact absurd hid (of_decide_eq_true (List.mem_filter.mp hid').2)
        | false =>
          -- the body leaves the policy where it is and does not switch it on
          rw [hopens, if_neg Bool.false_ne_true] at hid'
          obtain ⟨hkeeps, hoff⟩ := not_or.mp (of_decide_eq_false hopens)
          cases hd : data.customerId with
          | none =>
            simp only [PolicyData.apply, hd, Option.map_none, Option.getD_none] at hc ⊢
            have hwas := h.widened p hp hid' hc
            cases ha : data.isActive with
            | none => exact hwas
            | some active =>
              cases active with
              | false => rfl
              | true => exact absurd ha hoff
          | some given =>
            simp only [PolicyData.apply, hd, Option.map_some, Option.getD_some] at hc hkeeps
            exact absurd (congrArg some hc) hkeeps
      · rw [editPolicy, if_neg hid] at hc ⊢
        refine h.widened p hp ?_ hc
        split at hid'
        · exact (List.mem_filter.mp hid').1
        · exact hid'
    · intro p' hp'
      obtain ⟨p, hp, rfl⟩ := (Keyed.mem_update editPolicy_id).mp hp'
      refine ⟨p, hp, (editPolicy_id p).symm, (editPolicy_orgId p).symm, fun c hon hc ↦ ?_⟩
      by_cases hid : p.id = id
      · rw [editPolicy, if_pos hid] at hon hc
        exact .inl ⟨p, hp, hid, hon, hc⟩
      · rw [editPolicy, if_neg hid] at hon hc
        exact .inr ⟨hon, hc⟩

/-! ### Queries -/

theorem knows_policyPhase {phase : DeletePhase} (hw : Within orgId s.tables customerId)
    (h : policyPhase customerId options = some phase) :
    Knows orgId s (.deleting customerId options scope phase) := by
  unfold policyPhase at h
  split at h
  · obtain rfl := Option.some.inj h
    exact hw
  · obtain rfl := Option.some.inj h
    exact hw
  · obtain ⟨target, htarget, rfl⟩ := Option.map_eq_some_iff.mp h
    exact ⟨hw, otherCustomer_eq_ok (toOption_eq_some.mp htarget)⟩

theorem knows_serverPhase {phase : DeletePhase} (hw : Within orgId s.tables customerId)
    (h : serverPhase s.tables customerId options = some phase) :
    Knows orgId s (.deleting customerId options scope phase) := by
  unfold serverPhase at h
  split at h
  · exact knows_policyPhase hw h
  · split at h
    · obtain ⟨target, -, rfl⟩ := Option.map_eq_some_iff.mp h
      exact hw
    · exact knows_policyPhase hw h
    · cases h

theorem within_of_customer {c : Id} (h : (s.tables.customer orgId scope c).isSome) :
    Within orgId s.tables c := by
  obtain ⟨row, hrow⟩ := Option.isSome_iff_exists.mp h
  obtain ⟨hrow, hid, horg, -⟩ := Tenancy.customer_eq_some.mp hrow
  intro row' hrow' hid'
  rw [Keyed.ext hrow' hrow (hid'.trans hid.symm)]
  exact horg

theorem deleteStep_sane {phase : DeletePhase} (h : Sane s)
    (hk : Knows orgId s (.deleting customerId options scope phase)) :
    let r := deleteStep orgId s.tables customerId options scope phase
    Sane ⟨r.1, s.orphaned⟩ ∧
      Frame orgId s (.deleting customerId options scope phase) ⟨r.1, s.orphaned⟩ ∧
      ∀ l, r.2 = some l → Knows orgId ⟨r.1, s.orphaned⟩ l := by
  cases phase with
  | find =>
    refine ⟨h, .of_policies_eq rfl rfl, fun l hl ↦ ?_⟩
    obtain ⟨phase, hphase, rfl⟩ := Option.map_eq_some_iff.mp hl
    obtain ⟨row, hrow, hphase⟩ := Option.bind_eq_some_iff.mp hphase
    exact knows_serverPhase (within_of_customer (Option.isSome_of_mem hrow)) hphase
  | serverTarget target =>
    refine ⟨h, .of_policies_eq rfl rfl, fun l hl ↦ ?_⟩
    obtain ⟨-, -, rfl⟩ := Option.map_eq_some_iff.mp hl
    exact hk
  | servers target =>
    dsimp only [deleteStep]
    split
    · exact ⟨h, .of_policies_eq rfl rfl, fun l hl ↦ by cases hl⟩
    · rename_i t' ht'
      obtain rfl := reassignServers_eq_ok ht'
      refine ⟨h.of_policies_eq rfl rfl rfl, .of_policies_eq rfl rfl, fun l hl ↦ ?_⟩
      obtain ⟨phase, hphase, rfl⟩ := Option.map_eq_some_iff.mp hl
      exact knows_policyPhase hk hphase
  | policyTarget target =>
    refine ⟨h, .of_policies_eq rfl rfl, fun l hl ↦ ?_⟩
    obtain ⟨_, hfound, rfl⟩ := Option.map_eq_some_iff.mp hl
    have hfound := require_eq_ok.mp (toOption_eq_some.mp hfound)
    exact ⟨hk.1, hk.2, within_of_customer hfound⟩
  | policies target =>
    cases target with
    | none =>
      dsimp only [deleteStep]
      split
      · obtain ⟨hsane, hframe, hknows⟩ := deletePolicies_sane h hk
        exact ⟨hsane, hframe, fun l hl ↦ Option.some.inj hl ▸ hknows⟩
      · obtain ⟨hsane, hframe, hknows⟩ := switchOffPolicies_sane h hk
        exact ⟨hsane, hframe, fun l hl ↦ Option.some.inj hl ▸ hknows⟩
    | some target =>
      dsimp only [deleteStep]
      split
      · exact ⟨h, .of_policies_eq rfl rfl, fun l hl ↦ by cases hl⟩
      · rename_i t' ht'
        obtain ⟨hsane, hframe, hknows⟩ := reassignPolicies_sane h rfl hk ht'
        exact ⟨hsane, hframe, fun l hl ↦ Option.some.inj hl ▸ hknows⟩

theorem checkStep_knows {w : Write} {phase : CheckPhase} {l : Call}
    (hk : Knows orgId s (.checking w phase))
    (hs : checkStep orgId s.tables w phase e = some (some l)) : Knows orgId s l := by
  unfold checkStep at hs
  split at hs
  · have hs := Option.some.inj hs
    split at hs
    · rename_i hbegin
      obtain rfl := Option.some.inj hs
      cases w with
      | create data scope id => trivial
      | update id data scope =>
        obtain ⟨p, hp⟩ := Option.isSome_iff_exists.mp hbegin
        obtain ⟨hp, hid, horg⟩ := Tenancy.policy_eq_some.mp hp
        intro q hq hqid
        rw [Keyed.ext hq hp (hqid.trans hid.symm)]
        exact horg
    · cases hs
  · obtain ⟨_, hcheck, rfl⟩ := Option.map_eq_some_iff.mp (Option.some.inj hs)
    have hfound := checkPolicyCustomer_eq_ok (toOption_eq_some.mp hcheck)
    refine ⟨hk, fun c hc ↦ within_of_customer (hfound c ?_)⟩
    cases w with
    | create data scope id => exact hc
    | update id data scope => exact (truthy_eq_some.mp hc).1
  · split at hs
    · obtain ⟨-, -, rfl⟩ := Option.map_eq_some_iff.mp (Option.some.inj hs)
      split
      · exact hk
      · exact hk
    · cases hs
  · cases hs

theorem act_sane (h : Sane s) (hk : Knows orgId s k) (hs : act orgId s k e = some (s', k')) :
    Sane s' ∧ Frame orgId s k s' ∧ ∀ l, k' = some l → Knows orgId s' l := by
  unfold act at hs
  split at hs
  · obtain ⟨rfl, rfl⟩ := Prod.mk.inj (Option.some.inj hs)
    exact deleteStep_sane h hk
  · obtain ⟨rfl, rfl⟩ := Prod.mk.inj (Option.some.inj hs)
    obtain ⟨hsane, hframe⟩ := remove_sane h hk
    exact ⟨hsane, hframe, fun l hl ↦ by cases hl⟩
  · obtain ⟨next, hnext, heq⟩ := Option.map_eq_some_iff.mp hs
    obtain ⟨rfl, rfl⟩ := Prod.mk.inj heq
    exact ⟨h, .of_policies_eq rfl rfl, fun l hl ↦ checkStep_knows hk (hl ▸ hnext)⟩
  · rename_i w
    obtain ⟨rfl, rfl⟩ := Prod.mk.inj (Option.some.inj hs)
    have hcommit : Sane (commit orgId s w) ∧ Frame orgId s (.writing w) (commit orgId s w) := by
      cases w with
      | create data scope id => exact commit_create_sane h hk.2
      | update id data scope => exact commit_update_sane h hk
    exact ⟨hcommit.1, hcommit.2, fun l hl ↦ by cases hl⟩
  · cases hs

end

/-! ## Runs -/

theorem keeps (orgId : Id) :
    (program orgId).Keeps (fun p e _ ↦ KeepsOff orgId p e) Sane fun s _ k ↦ Knows orgId s k where
  spawn s i a h := by
    cases a <;> trivial
  act p i k e s' k' hp hk hact hoff := by
    obtain ⟨hsane, hframe, hknows⟩ := act_sane hp.1 (hp.2 i k hk) hact
    refine ⟨hsane, hknows, fun j l hj hl ↦ hframe.knows (hp.2 j l hl) fun c hc hputs ↦ ?_⟩
    exact hoff k hk c hputs ⟨j, hc ▸ hl⟩
  abort p i k hp _ := ⟨hp.1, fun j l _ hl ↦ hp.2 j l hl⟩
  env _ d := d.elim

/-- While nobody puts an active policy on a customer in the window of its deletion,
no policy is widened. -/
theorem run_noneWidened {orgId : Id} {t : Tenancy} {es : List (Event Request Query Empty)}
    {p : Pool PolicyStore Call} (ht : CustomersValid t)
    (hrun : Run (program orgId).step (fun p e _ ↦ KeepsOff orgId p e) (Program.idle Call ⟨t, []⟩)
      es p) : NoneWidened p.store := by
  have hsane : Sane ⟨t, []⟩ := ⟨ht, fun p _ hid ↦ by cases hid⟩
  exact ((keeps orgId).run (Program.holds_idle hsane) hrun).1.widened

/-! ### One customer -/

def oneCustomer : Tenancy where
  customers := { rows := [⟨"c1", "o1"⟩] }
  accessPolicies := { rows :=
    [{ id := "p1", orgId := "o1", customerId := some "c1", maxSessionDuration := 60 }] }

theorem customersValid_oneCustomer : CustomersValid oneCustomer := by
  intro p hp c hc
  obtain rfl := List.mem_singleton.mp hp
  obtain rfl := Option.some.inj hc
  exact ⟨_, List.mem_singleton_self _, rfl, rfl⟩

def deletion : List (Event Request Query Empty) :=
  [.spawn 0 (.deleteCustomer "c1" {} .unscoped), .act 0 .next, .act 0 .next, .act 0 .next]

def putsNothing (p : Pool PolicyStore Call) : Event Request Query Empty → Bool
  | .act i _ =>
    match p.calls i with
    | some (.writing _) | some (.deleting _ _ _ (.policies (some _))) => false
    | _ => true
  | _ => true

theorem keepsOff_of_putsNothing {orgId : Id} {p : Pool PolicyStore Call}
    {e : Event Request Query Empty} (h : putsNothing p e = true) : KeepsOff orgId p e := by
  cases e with
  | act i q =>
    intro k hk c hputs
    exfalso
    rw [putsNothing, hk] at h
    cases k with
    | deleting customerId options scope phase =>
      cases phase with
      | policies target =>
        cases target with
        | none => exact hputs
        | some target => cases h
      | find => exact hputs
      | serverTarget target => exact hputs
      | servers target => exact hputs
      | policyTarget target => exact hputs
    | removing customerId => exact hputs
    | checking w phase => exact hputs
    | writing w => cases h
  | spawn i a => trivial
  | abort i => trivial
  | env d => trivial

theorem run_noneWidened_deletion : ∃ p,
    Run (program "o1").step free (Program.idle Call ⟨oneCustomer, []⟩) deletion p ∧
    (p.store.tables.accessPolicies.rows.map fun q ↦ (q.customerId, q.isActive)) =
      [(none, false)] ∧ NoneWidened p.store := by
  have h : execIf (program "o1").step putsNothing (Program.idle Call ⟨oneCustomer, []⟩)
      deletion = some _ := rfl
  have hrun := run_of_execIf h
  exact ⟨_, hrun.forget, rfl, run_noneWidened customersValid_oneCustomer
    (hrun.mono fun _ _ _ ↦ keepsOff_of_putsNothing)⟩

def lateCreation : List (Event Request Query Empty) :=
  [.spawn 1 (.policy (.create { name := some "late", effect := some .allow, maxSessionDuration := some 60,
                                customerId := some (some "c1") } .unscoped "p2")),
    .act 1 .next, .act 1 .next, .act 1 (.refs .role), .act 1 (.refs .user), .act 1 (.refs .group),
    .spawn 0 (.deleteCustomer "c1" {} .unscoped), .act 0 .next, .act 0 .next, .act 1 .next,
    .act 0 .next]

/-- The second policy is active and applies to every customer; nobody asked for
that. -/
theorem lateCreation_widened : ∃ p,
    Run (program "o1").step free (Program.idle Call ⟨oneCustomer, []⟩) lateCreation p ∧
    CustomersValid oneCustomer ∧
    (∃ q ∈ p.store.tables.accessPolicies, q.id = "p2" ∧ q.isActive = true ∧ q.customerId = none) ∧
    ¬ NoneWidened p.store := by
  have h : exec (program "o1").step (Program.idle Call ⟨oneCustomer, []⟩) lateCreation =
      some _ := rfl
  refine ⟨_, run_of_exec h, customersValid_oneCustomer, ?_, fun hnone ↦ ?_⟩
  · exact ⟨_, List.mem_cons_of_mem _ (List.mem_singleton_self _), rfl, rfl, rfl⟩
  · have hoff := hnone _ (List.mem_cons_of_mem _ (List.mem_singleton_self _)) (by decide) rfl
    exact absurd hoff (by decide)

end Shellius.CustomerRace
