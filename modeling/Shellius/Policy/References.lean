import Shellius.Customers.Delete
import Shellius.Lib.Pool
import Shellius.Lib.References
import Shellius.Users.Groups

/-!
# What policies refer to

A policy names users, groups, roles and a customer, in five places.  The links of
an organization are the references of its policies; a user, a group and a
customer are named by id and a role by its key, so that another role may come to
bear the name.  Writing policies keeps the links sound, and so does every
deletion unless it forgets a place: deleting a user, a group or a role cleans the
subjects of policies but not their approvers.
-/

namespace Shellius

open Lib

/-! ## References -/

inductive Target where
  | user (id : Id)
  | group (id : Id)
  | role (key : String)
  | customer (id : Id)
deriving DecidableEq

/-- Where a policy names something. -/
inductive Place where
  | subjects | approverUserIds | approverGroupId | approverRoles | customerId
deriving DecidableEq

structure Reference where
  policyId : Id
  place : Place
  target : Target
deriving DecidableEq

def PolicySubject.target (s : PolicySubject) : Target :=
  match s.subjectType with
  | .user => .user s.subjectId
  | .group => .group s.subjectId
  | .role => .role s.subjectId

def AccessPolicy.targets (p : AccessPolicy) : Place → List Target
  | .subjects => p.subjects.map PolicySubject.target
  | .approverUserIds => p.approverUserIds.map .user
  | .approverGroupId => p.approverGroupId.toList.map .group
  | .approverRoles => p.approverRoles.map .role
  | .customerId => p.customerId.toList.map .customer

def AccessPolicy.references (p : AccessPolicy) : List Reference :=
  [Place.subjects, .approverUserIds, .approverGroupId, .approverRoles, .customerId].flatMap
    fun place ↦ (p.targets place).map fun target ↦ ⟨p.id, place, target⟩

namespace Tenancy

def references (t : Tenancy) (orgId : Id) : List Reference :=
  (t.accessPolicies.rows.filter fun p ↦ p.orgId = orgId).flatMap AccessPolicy.references

/-- The primary key of what bears a name in an organization. -/
def bearer (t : Tenancy) (orgId : Id) : Target → Option Id
  | .user id => (t.user orgId id).map fun u ↦ u.id
  | .group id => (t.group orgId id).map fun g ↦ g.id
  | .role key => (t.roles.rows.find? fun r ↦ r.orgId = orgId ∧ r.key = key).map fun r ↦ r.id
  | .customer id => (t.customer orgId .unscoped id).map Customer.id

end Tenancy

/-! ## Runs -/

/-- A call that writes policies or deletes what they name; `createRole` may bring
a key back. -/
inductive ReferenceCall where
  | createPolicy (data : PolicyData) (scope : Scope) (id : Id)
  | updatePolicy (id : Id) (data : PolicyData) (scope : Scope)
  | deleteUser (userId : Id) (reassignReportsTo : Option Id) (actor : Option Actor)
  | deleteGroup (groupId : Id)
  | deleteRole (actor : Actor) (id : Id) (reassignToRoleId : Option Id)
  | createRole (actor : Actor) (data : RoleData) (id : Id)
  | deleteCustomer (customerId : Id) (options : DeleteCustomerOptions) (scope : Scope)

/-- The tables after a call.  A call that is refused changes nothing and is no
step; `deleteCustomer` may fail after it has moved servers. -/
def changeReferred (rules : TextRules) (orgId : Id) (t : Tenancy) : ReferenceCall → Option Tenancy
  | .createPolicy data scope id => (createPolicy t orgId data scope id).toOption
  | .updatePolicy id data scope => (updatePolicy t orgId id data scope).toOption
  | .deleteUser userId ref actor => (deleteUser t orgId userId ref actor).toOption
  | .deleteGroup groupId => (deleteGroup t orgId groupId).toOption
  | .deleteRole actor id ref => (deleteRole t orgId actor id ref).toOption
  | .createRole actor data id => (createRole rules t orgId actor data id).toOption
  | .deleteCustomer customerId options scope =>
    some (deleteCustomer t orgId customerId options scope).1

def PolicyData.writes (data : PolicyData) : Place → Bool
  | .subjects => data.subjects.isSome
  | .approverUserIds => data.approverUserIds.isSome
  | .approverGroupId => data.approverGroupId.isSome
  | .approverRoles => data.approverRoles.isSome
  | .customerId => data.customerId.isSome

def ReferenceCall.rewrites : ReferenceCall → Reference → Bool
  | .updatePolicy id data _, r => r.policyId = id && data.writes r.place
  | _, _ => false

/-- The tables, and what each reference of a policy named when it was written. -/
structure Referring where
  tables : Tenancy
  recorded : Reference → Option Id

def Referring.links (s : Referring) (orgId : Id) : Links Reference Id where
  refs := s.tables.references orgId
  resolve r := s.tables.bearer orgId r.target
  recorded := s.recorded

/-- One call; what it writes is recorded. -/
def Referring.step (rules : TextRules) (orgId : Id) (s : Referring) (e : ReferenceCall) :
    Option Referring :=
  (changeReferred rules orgId s.tables e).map fun t ↦
    ⟨t, ((s.links orgId).advance e.rewrites (t.references orgId)
      fun r ↦ t.bearer orgId r.target).recorded⟩

def SparesApprovers (orgId : Id) (t : Tenancy) : ReferenceCall → Prop
  | .deleteUser userId _ _ =>
    ∀ p ∈ t.accessPolicies, p.orgId = orgId → userId ∉ p.approverUserIds
  | .deleteGroup groupId =>
    ∀ p ∈ t.accessPolicies, p.orgId = orgId → p.approverGroupId ≠ some groupId
  | .deleteRole _ id _ =>
    ∀ role ∈ t.role orgId id, ∀ p ∈ t.accessPolicies, p.orgId = orgId →
      role.key ∉ p.approverRoles
  | _ => True

/-- The role keys of an organization are distinct: `@@unique([orgId, key])`. -/
def RoleKeysUnique (orgId : Id) (t : Tenancy) : Prop :=
  ∀ r ∈ t.roles, ∀ r' ∈ t.roles, r.orgId = orgId → r'.orgId = orgId → r.key = r'.key → r = r'

section

variable {rules : TextRules} {t t' : Tenancy} {orgId id : Id} {p : AccessPolicy}
  {data : PolicyData} {scope : Scope} {place : Place} {target : Target}

/-! ## Who bears a name -/

theorem bearer_user {i : Id} :
    t.bearer orgId (.user id) = some i ↔ i = id ∧ ∃ u ∈ t.users, u.id = id ∧ u.orgId = orgId := by
  simp only [Tenancy.bearer, Option.map_eq_some_iff, Tenancy.user_eq_some]
  constructor
  · rintro ⟨u, ⟨hu, rfl, horg⟩, rfl⟩
    exact ⟨rfl, u, hu, rfl, horg⟩
  · rintro ⟨rfl, u, hu, rfl, horg⟩
    exact ⟨u, ⟨hu, rfl, horg⟩, rfl⟩

theorem bearer_group {i : Id} :
    t.bearer orgId (.group id) = some i ↔ i = id ∧ ∃ g ∈ t.groups, g.id = id ∧ g.orgId = orgId := by
  simp only [Tenancy.bearer, Option.map_eq_some_iff, Tenancy.group_eq_some]
  constructor
  · rintro ⟨g, ⟨hg, rfl, horg⟩, rfl⟩
    exact ⟨rfl, g, hg, rfl, horg⟩
  · rintro ⟨rfl, g, hg, rfl, horg⟩
    exact ⟨g, ⟨hg, rfl, horg⟩, rfl⟩

theorem bearer_customer {i : Id} :
    t.bearer orgId (.customer id) = some i ↔
      i = id ∧ ∃ c ∈ t.customers, c.id = id ∧ c.orgId = orgId := by
  simp only [Tenancy.bearer, Option.map_eq_some_iff, Tenancy.customer_eq_some]
  constructor
  · rintro ⟨c, ⟨hc, rfl, horg, -⟩, rfl⟩
    exact ⟨rfl, c, hc, rfl, horg⟩
  · rintro ⟨rfl, c, hc, rfl, horg⟩
    exact ⟨c, ⟨hc, rfl, horg, rfl⟩, rfl⟩

theorem bearer_role {i : Id} {key : String} (hkeys : RoleKeysUnique orgId t) :
    t.bearer orgId (.role key) = some i ↔
      ∃ r ∈ t.roles, r.orgId = orgId ∧ r.key = key ∧ r.id = i := by
  rw [Tenancy.bearer, Option.map_eq_some_iff]
  constructor
  · rintro ⟨r, hr, rfl⟩
    have hfound := List.find?_some hr
    obtain ⟨horg, hkey⟩ := of_decide_eq_true hfound
    exact ⟨r, List.mem_of_find?_eq_some hr, horg, hkey, rfl⟩
  · rintro ⟨r, hr, horg, hkey, rfl⟩
    cases hf : t.roles.rows.find? fun r ↦ r.orgId = orgId ∧ r.key = key with
    | none => exact absurd (decide_eq_true ⟨horg, hkey⟩) (List.find?_eq_none.mp hf r hr)
    | some r' =>
      have hfound := List.find?_some hf
      obtain ⟨horg', hkey'⟩ := of_decide_eq_true hfound
      have hr' : r' ∈ t.roles := List.mem_of_find?_eq_some hf
      rw [hkeys r' hr' r hr horg' horg (hkey'.trans hkey.symm)]
      exact ⟨r, rfl, rfl⟩

theorem bearer_congr (hroles : t'.roles = t.roles) (husers : t'.users = t.users)
    (hgroups : t'.groups = t.groups) (hcustomers : t'.customers = t.customers) :
    t'.bearer orgId target = t.bearer orgId target := by
  cases target with
  | user id => rw [Tenancy.bearer, Tenancy.bearer, Tenancy.user, Tenancy.user, husers]
  | group id => rw [Tenancy.bearer, Tenancy.bearer, Tenancy.group, Tenancy.group, hgroups]
  | role key => rw [Tenancy.bearer, Tenancy.bearer, hroles]
  | customer id => rw [Tenancy.bearer, Tenancy.bearer, Tenancy.customer, Tenancy.customer, hcustomers]

/-! ## Which references there are -/

theorem mem_references {r : Reference} :
    r ∈ t.references orgId ↔
      ∃ p ∈ t.accessPolicies, p.orgId = orgId ∧ r.policyId = p.id ∧ r.target ∈ p.targets r.place := by
  simp only [Tenancy.references, List.mem_flatMap, List.mem_filter, decide_eq_true_eq]
  refine exists_congr fun p ↦ ?_
  rw [and_assoc]
  refine and_congr_right fun _ ↦ and_congr_right fun _ ↦ ?_
  simp only [AccessPolicy.references, List.mem_flatMap, List.mem_map]
  constructor
  · rintro ⟨place, -, target, ht, rfl⟩
    exact ⟨rfl, ht⟩
  · rintro ⟨hid, ht⟩
    refine ⟨r.place, ?_, r.target, ht, by rw [← hid]⟩
    cases r.place <;> simp

/-- A body names something. -/
def PolicyData.Names (data : PolicyData) : Target → Prop
  | .user id => id ∈ data.userIds
  | .group id => id ∈ data.groupIds
  | .role key => key ∈ data.roleKeys
  | .customer id => truthy data.customerId.join = some id

theorem names_subject {s : PolicySubject} (h : s ∈ data.subjects.getD []) :
    data.Names s.target := by
  have hmem : ∀ {type : SubjectType}, s.subjectType = type →
      s.subjectId ∈ subjectIds type (data.subjects.getD []) := by
    rintro type rfl
    exact List.mem_map_of_mem (List.mem_filter.mpr ⟨h, decide_eq_true rfl⟩)
  unfold PolicySubject.target
  split
  · exact List.mem_eraseDups.mpr (List.mem_append_left _ (hmem ‹_›))
  · exact List.mem_eraseDups.mpr (List.mem_append_left _ (hmem ‹_›))
  · exact List.mem_eraseDups.mpr (List.mem_append_left _ (hmem ‹_›))

theorem names_approverGroup (h : truthy data.approverGroupId.join = some id) :
    data.Names (.group id) := by
  refine List.mem_eraseDups.mpr (List.mem_append_right _ ?_)
  rw [h]
  exact List.mem_singleton_self id

theorem names_of_newPolicy (h : newPolicy orgId id data = .ok p) (ht : target ∈ p.targets place) :
    data.Names target := by
  obtain ⟨-, -, hcustomer, hgroup, hroles, husers, hsubjects, -⟩ := newPolicy_eq_ok h
  cases place with
  | subjects =>
    obtain ⟨s, hs, rfl⟩ := List.mem_map.mp ht
    rw [hsubjects] at hs
    exact names_subject (List.mem_eraseDups.mp hs)
  | approverUserIds =>
    obtain ⟨id, hid, rfl⟩ := List.mem_map.mp ht
    exact List.mem_eraseDups.mpr (List.mem_append_right _ (husers ▸ hid))
  | approverGroupId =>
    obtain ⟨id, hid, rfl⟩ := List.mem_map.mp ht
    rw [hgroup, Option.mem_toList] at hid
    exact names_approverGroup hid
  | approverRoles =>
    obtain ⟨key, hkey, rfl⟩ := List.mem_map.mp ht
    exact List.mem_eraseDups.mpr (List.mem_append_right _ (hroles ▸ hkey))
  | customerId =>
    obtain ⟨id, hid, rfl⟩ := List.mem_map.mp ht
    rw [hcustomer, Option.mem_toList] at hid
    exact hid

/-- An edited policy names what it named or what the body names. -/
theorem names_of_apply (ht : target ∈ (data.apply p).targets place) :
    target ∈ p.targets place ∨ data.Names target := by
  cases place with
  | subjects =>
    cases hd : data.subjects with
    | none => exact .inl (by simpa [PolicyData.apply, AccessPolicy.targets, hd] using ht)
    | some subjects =>
      obtain ⟨s, hs, rfl⟩ := List.mem_map.mp ht
      simp only [PolicyData.apply, hd, Option.map_some, Option.getD_some,
        List.mem_eraseDups] at hs
      exact .inr (names_subject (by rw [hd]; exact hs))
  | approverUserIds =>
    cases hd : data.approverUserIds with
    | none => exact .inl (by simpa [PolicyData.apply, AccessPolicy.targets, hd] using ht)
    | some ids =>
      obtain ⟨id, hid, rfl⟩ := List.mem_map.mp ht
      simp only [PolicyData.apply, hd, Option.getD_some] at hid
      refine .inr (List.mem_eraseDups.mpr (List.mem_append_right _ ?_))
      rw [hd]
      exact hid
  | approverGroupId =>
    cases hd : data.approverGroupId with
    | none => exact .inl (by simpa [PolicyData.apply, AccessPolicy.targets, hd] using ht)
    | some group =>
      obtain ⟨id, hid, rfl⟩ := List.mem_map.mp ht
      simp only [PolicyData.apply, hd, Option.map_some, Option.getD_some,
        Option.mem_toList] at hid
      exact .inr (names_approverGroup (by rw [hd]; exact hid))
  | approverRoles =>
    cases hd : data.approverRoles with
    | none => exact .inl (by simpa [PolicyData.apply, AccessPolicy.targets, hd] using ht)
    | some keys =>
      obtain ⟨key, hkey, rfl⟩ := List.mem_map.mp ht
      simp only [PolicyData.apply, hd, Option.getD_some] at hkey
      refine .inr (List.mem_eraseDups.mpr (List.mem_append_right _ ?_))
      rw [hd]
      exact hkey
  | customerId =>
    cases hd : data.customerId with
    | none => exact .inl (by simpa [PolicyData.apply, AccessPolicy.targets, hd] using ht)
    | some customer =>
      obtain ⟨id, hid, rfl⟩ := List.mem_map.mp ht
      simp only [PolicyData.apply, hd, Option.map_some, Option.getD_some,
        Option.mem_toList] at hid
      refine .inr ?_
      rw [PolicyData.Names, hd]
      exact hid

theorem bearer_of_names (hrefs : assertPolicyRefs t orgId data = .ok ⟨⟩)
    (hcustomer : ∀ c, truthy data.customerId.join = some c → (t.customer orgId scope c).isSome)
    (h : data.Names target) : (t.bearer orgId target).isSome := by
  obtain ⟨hroles, husers, hgroups⟩ := assertPolicyRefs_eq_ok hrefs
  cases target with
  | user id => simpa [Tenancy.bearer] using husers id h
  | group id => simpa [Tenancy.bearer] using hgroups id h
  | role key =>
    obtain ⟨r, hr, horg, hkey⟩ := hroles key h
    rw [Tenancy.bearer, Option.isSome_map]
    exact List.find?_isSome.mpr ⟨r, hr, decide_eq_true ⟨horg, hkey⟩⟩
  | customer id =>
    obtain ⟨c, hc⟩ := Option.isSome_iff_exists.mp (hcustomer id h)
    obtain ⟨hc, hid, horg, -⟩ := Tenancy.customer_eq_some.mp hc
    rw [bearer_customer.mpr ⟨rfl, c, hc, hid, horg⟩]
    rfl

/-! ## Writing policies -/

variable {s : Referring} {written : Reference → Bool}

def Referring.next (s : Referring) (orgId : Id) (written : Reference → Bool) (t : Tenancy) :
    Links Reference Id :=
  (s.links orgId).advance written (t.references orgId) fun r ↦ t.bearer orgId r.target

theorem next_sound_of_policies (h : (s.links orgId).Sound) (hroles : t'.roles = s.tables.roles)
    (husers : t'.users = s.tables.users) (hgroups : t'.groups = s.tables.groups)
    (hcustomers : t'.customers = s.tables.customers)
    (hpolicies : ∀ p' ∈ t'.accessPolicies, p'.orgId = orgId → ∀ place,
      ∀ target ∈ p'.targets place,
        (∃ p ∈ s.tables.accessPolicies, p.orgId = orgId ∧ p.id = p'.id ∧
          target ∈ p.targets place) ∨ (s.tables.bearer orgId target).isSome) :
    (s.next orgId written t').Sound := by
  refine h.advance (fun r _ _ ↦ bearer_congr hroles husers hgroups hcustomers) fun r hr ↦ ?_
  obtain ⟨p', hp', horg', hid', ht⟩ := mem_references.mp hr
  rcases hpolicies p' hp' horg' r.place r.target ht with ⟨p, hp, horg, hid, ht⟩ | hsome
  · exact .inl (mem_references.mpr ⟨p, hp, horg, hid'.trans hid.symm, ht⟩)
  · exact .inr hsome

theorem createPolicy_sound (h : (s.links orgId).Sound)
    (hcall : createPolicy s.tables orgId data scope id = .ok t') :
    (s.next orgId written t').Sound := by
  obtain ⟨p, hp, hcustomer, hrefs, hinsert⟩ := createPolicy_eq_ok hcall
  obtain ⟨-, hfresh, rfl⟩ := insertPolicy_eq_ok hinsert
  refine next_sound_of_policies h rfl rfl rfl rfl fun p' hp' horg place target ht ↦ ?_
  obtain hp' | rfl := (Keyed.mem_insert hfresh).mp hp'
  · exact .inl ⟨p', hp', horg, rfl, ht⟩
  · exact .inr (bearer_of_names hrefs (checkPolicyCustomer_eq_ok hcustomer)
      (names_of_newPolicy hp ht))

theorem updatePolicy_sound (h : (s.links orgId).Sound)
    (hcall : updatePolicy s.tables orgId id data scope = .ok t') :
    (s.next orgId written t').Sound := by
  obtain ⟨-, hcustomer, hrefs, hwrite⟩ := updatePolicy_eq_ok hcall
  obtain ⟨-, -, rfl⟩ := writePolicy_eq_ok hwrite
  refine next_sound_of_policies h rfl rfl rfl rfl fun p' hp' horg place target ht ↦ ?_
  obtain ⟨p, hp, rfl⟩ := (Keyed.mem_update editPolicy_id).mp hp'
  rw [editPolicy_orgId] at horg
  by_cases hid : p.id = id
  · rw [editPolicy, if_pos hid] at ht
    rcases names_of_apply ht with ht | hnames
    · exact .inl ⟨p, hp, horg, (editPolicy_id p).symm, ht⟩
    · have hfound : ∀ c, truthy data.customerId.join = some c →
          (s.tables.customer orgId scope c).isSome := by
        intro c hc
        obtain ⟨hjoin, -⟩ := truthy_eq_some.mp hc
        exact checkPolicyCustomer_eq_ok hcustomer c hjoin
      exact .inr (bearer_of_names hrefs hfound hnames)
  · rw [editPolicy, if_neg hid] at ht
    exact .inl ⟨p, hp, horg, (editPolicy_id p).symm, ht⟩

/-! ## Creating and deleting what policies name -/

theorem createRole_sound {actor : Actor} {data : RoleData} (h : (s.links orgId).Sound)
    (hkeys : RoleKeysUnique orgId s.tables)
    (hcall : createRole rules s.tables orgId actor data id = .ok t') :
    RoleKeysUnique orgId t' ∧ (s.next orgId written t').Sound := by
  obtain ⟨r, hr, rfl, -, horg, -, hkey, -⟩ := createRole_eq_ok hcall
  have hnew : ∀ r' ∈ s.tables.roles, r'.orgId = orgId → r'.key ≠ r.key := by
    intro r' hr' horg' he
    refine hkey (he ▸ ?_)
    exact List.mem_map_of_mem (List.mem_filter.mpr ⟨hr', decide_eq_true horg'⟩)
  have hkeys' : RoleKeysUnique orgId { s.tables with roles := s.tables.roles.insert r hr } := by
    intro r₁ hr₁ r₂ hr₂ horg₁ horg₂ he
    rcases (Keyed.mem_insert hr).mp hr₁ with hold₁ | he₁
    · rcases (Keyed.mem_insert hr).mp hr₂ with hold₂ | he₂
      · exact hkeys r₁ hold₁ r₂ hold₂ horg₁ horg₂ he
      · exact absurd (he₂ ▸ he) (hnew r₁ hold₁ horg₁)
    · rcases (Keyed.mem_insert hr).mp hr₂ with hold₂ | he₂
      · exact absurd (he₁ ▸ he).symm (hnew r₂ hold₂ horg₂)
      · exact he₁.trans he₂.symm
  refine ⟨hkeys', h.advance (fun ref _ hsome ↦ ?_) fun ref href ↦ .inl href⟩
  -- whatever bore the name before still bears it
  obtain ⟨i, hi⟩ := Option.isSome_iff_exists.mp hsome
  refine Eq.trans ?_ hi.symm
  change s.tables.bearer orgId ref.target = some i at hi
  cases ht : ref.target with
  | user id => rw [ht] at hi; exact hi
  | group id => rw [ht] at hi; exact hi
  | customer id => rw [ht] at hi; exact hi
  | role key =>
    rw [ht] at hi
    obtain ⟨r', hr', hrow⟩ := (bearer_role hkeys).mp hi
    exact (bearer_role hkeys').mpr ⟨r', (Keyed.mem_insert hr).mpr (.inl hr'), hrow⟩

theorem mem_targets_keepSubjects {gone : Target} :
    target ∈ (keepSubjects (fun s ↦ s.target ≠ gone) p).targets place ↔
      target ∈ p.targets place ∧ (place = .subjects → target ≠ gone) := by
  cases place with
  | subjects =>
    simp only [AccessPolicy.targets, keepSubjects, List.mem_map, List.mem_filter,
      decide_eq_true_eq, forall_true_left]
    constructor
    · rintro ⟨s, ⟨hs, hne⟩, rfl⟩
      exact ⟨⟨s, hs, rfl⟩, hne⟩
    · rintro ⟨⟨s, hs, rfl⟩, hne⟩
      exact ⟨s, ⟨hs, hne⟩, rfl⟩
  | approverUserIds | approverGroupId | approverRoles | customerId =>
    exact ⟨fun h ↦ ⟨h, fun he ↦ by cases he⟩, And.left⟩

/-- Deleting what bears a name and the subjects that bear it leaves the links
sound just when the name stands in no other place. -/
theorem next_sound_remove_iff (gone : Target) (f : AccessPolicy → AccessPolicy)
    (hf : ∀ p, (f p).id = p.id) (h : (s.links orgId).Sound)
    (hpolicies : t'.accessPolicies = s.tables.accessPolicies.update f hf)
    (hclean : ∀ p, (f p).orgId = p.orgId ∧
      (p.orgId = orgId → f p = keepSubjects (fun s ↦ s.target ≠ gone) p))
    (hgone : t'.bearer orgId gone = none)
    (hkept : ∀ target, target ≠ gone → t'.bearer orgId target = s.tables.bearer orgId target) :
    (s.next orgId written t').Sound ↔
      ∀ p ∈ s.tables.accessPolicies, p.orgId = orgId → ∀ place, place ≠ .subjects →
        gone ∉ p.targets place := by
  have htargets : ∀ p, p.orgId = orgId → ∀ place target,
      target ∈ (f p).targets place ↔
        target ∈ p.targets place ∧ (place = .subjects → target ≠ gone) := by
    intro p horg place target
    rw [(hclean p).2 horg, mem_targets_keepSubjects]
  have hrefs : ∀ r, r ∈ t'.references orgId ↔ ∃ p ∈ s.tables.accessPolicies, p.orgId = orgId ∧
      r.policyId = p.id ∧ r.target ∈ p.targets r.place ∧ (r.place = .subjects → r.target ≠ gone) := by
    intro r
    rw [mem_references, hpolicies]
    constructor
    · rintro ⟨p', hp', horg, hid, ht⟩
      obtain ⟨p, hp, rfl⟩ := (Keyed.mem_update hf).mp hp'
      rw [(hclean p).1] at horg
      exact ⟨p, hp, horg, hid.trans (hf p), (htargets p horg _ _).mp ht⟩
    · rintro ⟨p, hp, horg, hid, ht⟩
      refine ⟨f p, (Keyed.mem_update hf).mpr ⟨p, hp, rfl⟩, (hclean p).1.trans horg,
        hid.trans (hf p).symm, (htargets p horg _ _).mpr ht⟩
  have hsound : (s.next orgId written t').Sound ↔
      ∀ r ∈ t'.references orgId, decide (r.target = gone) = false := by
    refine Links.sound_advance_remove_iff h (fun r hr ↦ ?_) (fun r hr ↦ ?_) fun r hr ↦ ?_
    · obtain ⟨p, hp, horg, hid, ht, -⟩ := (hrefs r).mp hr
      exact mem_references.mpr ⟨p, hp, horg, hid, ht⟩
    · rw [of_decide_eq_true hr]
      exact hgone
    · exact hkept _ (of_decide_eq_false hr)
  rw [hsound]
  constructor
  · intro hnone p hp horg place hplace ht
    refine of_decide_eq_false (hnone ⟨p.id, place, gone⟩ ((hrefs _).mpr ?_)) rfl
    exact ⟨p, hp, horg, rfl, ht, fun he ↦ absurd he hplace⟩
  · intro hnone r hr
    obtain ⟨p, hp, horg, -, ht, hsubject⟩ := (hrefs r).mp hr
    refine decide_eq_false fun he ↦ ?_
    by_cases hplace : r.place = .subjects
    · exact hsubject hplace he
    · exact hnone p hp horg r.place hplace (he ▸ ht)

theorem cleanupPolicySubjects_eq (type : SubjectType) (id : Id) (p : AccessPolicy) :
    cleanupPolicySubjects type id p =
      keepSubjects (fun s ↦ s.target ≠ PolicySubject.target ⟨type, id⟩) p := by
  refine congrArg (fun keep ↦ keepSubjects keep p) (funext fun sub ↦ ?_)
  obtain ⟨type', id'⟩ := sub
  cases type <;> cases type' <;> simp [PolicySubject.target]

/-! Outside the subjects a user, a group or a role stands among the approvers only. -/

theorem user_outside_subjects :
    (∀ place, place ≠ .subjects → .user id ∉ p.targets place) ↔ id ∉ p.approverUserIds := by
  constructor
  · intro hnone hmem
    exact hnone .approverUserIds (by simp) (List.mem_map_of_mem hmem)
  · intro hnone place hplace hmem
    cases place <;> simp [AccessPolicy.targets] at hplace hmem
    exact hnone hmem

theorem group_outside_subjects :
    (∀ place, place ≠ .subjects → .group id ∉ p.targets place) ↔ p.approverGroupId ≠ some id := by
  constructor
  · intro hnone hmem
    refine hnone .approverGroupId (by simp) ?_
    rw [AccessPolicy.targets, hmem]
    exact List.mem_singleton_self _
  · intro hnone place hplace hmem
    cases place <;> simp [AccessPolicy.targets] at hplace hmem
    exact hnone hmem

theorem role_outside_subjects {key : String} :
    (∀ place, place ≠ .subjects → .role key ∉ p.targets place) ↔ key ∉ p.approverRoles := by
  constructor
  · intro hnone hmem
    exact hnone .approverRoles (by simp) (List.mem_map_of_mem hmem)
  · intro hnone place hplace hmem
    cases place <;> simp [AccessPolicy.targets] at hplace hmem
    exact hnone hmem

theorem deleteUser_sound_iff {userId : Id} {ref : Option Id} {actor : Option Actor}
    (h : (s.links orgId).Sound) (hcall : deleteUser s.tables orgId userId ref actor = .ok t') :
    (s.next orgId written t').Sound ↔
      SparesApprovers orgId s.tables (.deleteUser userId ref actor) := by
  simp only [deleteUser, bind_eq_ok, demand_eq_ok, pure_eq_ok] at hcall
  obtain ⟨-, -, -, -, -, -, -, -, rfl⟩ := hcall
  have hgone : (removeUser s.tables orgId userId (truthy ref)).bearer orgId (.user userId) = none := by
    refine Option.eq_none_iff_forall_ne_some.mpr fun i hi ↦ ?_
    obtain ⟨-, u', hu', hid, -⟩ := bearer_user.mp hi
    obtain ⟨u, hu, rfl⟩ := (Keyed.mem_update dropManager_id).mp hu'
    exact of_decide_eq_true (Keyed.mem_filter.mp hu).2 hid
  have hkept : ∀ target, target ≠ .user userId →
      (removeUser s.tables orgId userId (truthy ref)).bearer orgId target =
        s.tables.bearer orgId target := by
    intro target hne
    cases target with
    | user id =>
      have hne : id ≠ userId := fun he ↦ hne (he ▸ rfl)
      refine Option.ext fun i ↦ ?_
      rw [bearer_user, bearer_user]
      refine and_congr_right fun _ ↦ ?_
      constructor
      · rintro ⟨u', hu', hid, horg⟩
        obtain ⟨u, hu, rfl⟩ := (Keyed.mem_update dropManager_id).mp hu'
        exact ⟨u, (Keyed.mem_filter.mp hu).1, hid, horg⟩
      · rintro ⟨u, hu, hid, horg⟩
        refine ⟨_, (Keyed.mem_update dropManager_id).mpr ⟨u, ?_, rfl⟩, hid, horg⟩
        exact Keyed.mem_filter.mpr ⟨hu, decide_eq_true (hid ▸ hne)⟩
    | group id => rfl
    | role key => rfl
    | customer id => rfl
  rw [next_sound_remove_iff (.user userId) _ cleanupPolicySubjects_id h rfl
    (fun p ↦ ⟨rfl, fun _ ↦ cleanupPolicySubjects_eq .user userId p⟩) hgone hkept]
  exact forall₃_congr fun _ _ _ ↦ user_outside_subjects

theorem deleteGroup_sound_iff {groupId : Id} (h : (s.links orgId).Sound)
    (hcall : deleteGroup s.tables orgId groupId = .ok t') :
    (s.next orgId written t').Sound ↔ SparesApprovers orgId s.tables (.deleteGroup groupId) := by
  simp only [deleteGroup, bind_eq_ok, require_eq_ok, pure_eq_ok] at hcall
  obtain ⟨-, -, ht'⟩ := hcall
  have hgone : t'.bearer orgId (.group groupId) = none := by
    refine Option.eq_none_iff_forall_ne_some.mpr fun i hi ↦ ?_
    obtain ⟨-, g, hg, hid, -⟩ := bearer_group.mp hi
    rw [← ht'] at hg
    exact of_decide_eq_true (Keyed.mem_filter.mp hg).2 hid
  have hkept : ∀ target, target ≠ .group groupId →
      t'.bearer orgId target = s.tables.bearer orgId target := by
    intro target hne
    rw [← ht']
    cases target with
    | user id => rfl
    | group id =>
      have hne : id ≠ groupId := fun he ↦ hne (he ▸ rfl)
      refine Option.ext fun i ↦ ?_
      rw [bearer_group, bearer_group]
      refine and_congr_right fun _ ↦ exists_congr fun g ↦ ?_
      rw [Keyed.mem_filter, and_assoc]
      refine and_congr_right fun _ ↦ ⟨And.right, fun hg ↦ ⟨?_, hg⟩⟩
      exact decide_eq_true (hg.1 ▸ hne)
    | role key => rfl
    | customer id => rfl
  rw [next_sound_remove_iff (.group groupId) _ cleanupPolicySubjects_id h (by rw [← ht'])
    (fun p ↦ ⟨rfl, fun _ ↦ cleanupPolicySubjects_eq .group groupId p⟩) hgone hkept]
  exact forall₃_congr fun _ _ _ ↦ group_outside_subjects

theorem deleteRole_sound_iff {actor : Actor} {ref : Option Id} (h : (s.links orgId).Sound)
    (hkeys : RoleKeysUnique orgId s.tables)
    (hcall : deleteRole s.tables orgId actor id ref = .ok t') :
    RoleKeysUnique orgId t' ∧ ((s.next orgId written t').Sound ↔
      SparesApprovers orgId s.tables (.deleteRole actor id ref)) := by
  obtain ⟨role, moved, hrole, -, -, -, ht'⟩ := deleteRole_eq_ok hcall
  obtain ⟨hmem, rfl, horg⟩ := Tenancy.role_eq_some.mp hrole
  have hroles : t'.roles = s.tables.roles.filter fun r ↦ r.id ≠ role.id := by rw [ht']
  have hkeys' : RoleKeysUnique orgId t' := by
    intro r hr r' hr'
    rw [hroles, Keyed.mem_filter] at hr hr'
    exact hkeys r hr.1 r' hr'.1
  have hclean : ∀ p, p.orgId = orgId → dropRoleSubject orgId role.key p =
      keepSubjects (fun s ↦ s.target ≠ .role role.key) p := by
    refine fun p horg ↦ congrArg (fun keep ↦ keepSubjects keep p) (funext fun sub ↦ ?_)
    obtain ⟨type, id⟩ := sub
    cases type <;> simp [PolicySubject.target, horg]
  have hgone : t'.bearer orgId (.role role.key) = none := by
    refine Option.eq_none_iff_forall_ne_some.mpr fun i hi ↦ ?_
    obtain ⟨r, hr, horg', hkey, -⟩ := (bearer_role hkeys').mp hi
    rw [hroles, Keyed.mem_filter] at hr
    refine of_decide_eq_true hr.2 ?_
    rw [hkeys r hr.1 role hmem horg' horg hkey]
  have hkept : ∀ target, target ≠ .role role.key →
      t'.bearer orgId target = s.tables.bearer orgId target := by
    intro target hne
    cases target with
    | user id =>
      refine Option.ext fun i ↦ ?_
      rw [bearer_user, bearer_user, ht']
      refine and_congr_right fun _ ↦ ?_
      cases moved with
      | none => rfl
      | some r =>
        constructor
        · rintro ⟨u', hu', hid, horg⟩
          obtain ⟨u, hu, rfl⟩ := mem_usersMoved.mp hu'
          exact ⟨u, hu, hid, horg⟩
        · rintro ⟨u, hu, hid, horg⟩
          exact ⟨_, mem_usersMoved.mpr ⟨u, hu, rfl⟩, hid, horg⟩
    | group id => rw [ht']; rfl
    | role key =>
      refine Option.ext fun i ↦ ?_
      rw [bearer_role hkeys', bearer_role hkeys, hroles]
      refine exists_congr fun r ↦ ?_
      rw [Keyed.mem_filter, and_assoc]
      refine and_congr_right fun hr ↦ ⟨And.right, fun hrow ↦ ⟨decide_eq_true fun he ↦ hne ?_, hrow⟩⟩
      obtain rfl : r = role := Keyed.ext hr hmem he
      rw [hrow.2.1]
    | customer id => rw [ht']; rfl
  refine ⟨hkeys', ?_⟩
  rw [next_sound_remove_iff (.role role.key) _ dropRoleSubject_id h (by rw [ht'])
    (fun p ↦ ⟨rfl, hclean p⟩) hgone hkept, SparesApprovers, hrole]
  simp only [Option.mem_some_iff, forall_eq']
  exact forall₃_congr fun _ _ _ ↦ role_outside_subjects

/-! ## Deleting customers -/

variable {customerId : Id} {options : DeleteCustomerOptions}

theorem customerId_of_target (h : .customer id ∈ p.targets place) :
    place = .customerId ∧ p.customerId = some id := by
  cases place with
  | customerId => simpa [AccessPolicy.targets] using h
  | approverUserIds | approverGroupId | approverRoles => simp [AccessPolicy.targets] at h
  | subjects =>
    obtain ⟨⟨type, id'⟩, -, hs⟩ := List.mem_map.mp h
    cases type <;> cases hs

theorem references_handlePolicies {r : Reference}
    (h : handlePolicies t orgId customerId options scope = .ok t') (hr : r ∈ t'.references orgId) :
    r ∈ t.references orgId ∨ (t.bearer orgId r.target).isSome := by
  obtain ⟨p', hp', horg, hid, ht⟩ := mem_references.mp hr
  rcases handlePolicies_eq_ok h with rfl | ⟨target, -, hfound, rfl⟩ | rfl
  · exact .inl (mem_references.mpr ⟨p', (Keyed.mem_filter.mp hp').1, horg, hid, ht⟩)
  · obtain ⟨p, hp, rfl⟩ := (Keyed.mem_update movePolicy_id).mp hp'
    cases hplace : r.place with
    | customerId =>
      by_cases hmoves : isPolicyOf orgId customerId p = true
      · refine .inr ?_
        rw [hplace] at ht
        simp only [AccessPolicy.targets, movePolicy, if_pos hmoves, Option.toList_some,
          List.map_singleton, List.mem_singleton] at ht
        obtain ⟨c, hc⟩ := Option.isSome_iff_exists.mp hfound
        obtain ⟨hc, hid, horg, -⟩ := Tenancy.customer_eq_some.mp hc
        rw [ht, bearer_customer.mpr ⟨rfl, c, hc, hid, horg⟩]
        rfl
      · refine .inl (mem_references.mpr ⟨p, hp, horg, hid, ?_⟩)
        have hstays : movePolicy orgId customerId target p = p := by
          rw [movePolicy, if_neg hmoves]
        exact hstays ▸ ht
    | subjects | approverUserIds | approverGroupId | approverRoles =>
      rw [hplace] at ht
      exact .inl (mem_references.mpr ⟨p, hp, horg, hid, hplace ▸ ht⟩)
  · obtain ⟨p, hp, rfl⟩ := (Keyed.mem_update switchOff_id).mp hp'
    refine .inl (mem_references.mpr ⟨p, hp, horg, hid, ?_⟩)
    cases hplace : r.place <;> exact hplace ▸ ht

theorem references_deleteCustomerRow {r : Reference} (h : deleteCustomerRow t customerId = .ok t')
    (hr : r ∈ t'.references orgId) :
    r ∈ t.references orgId ∧ t'.bearer orgId r.target = t.bearer orgId r.target := by
  obtain rfl := deleteCustomerRow_eq_ok h
  obtain ⟨p', hp', horg, hid, ht⟩ := mem_references.mp hr
  obtain ⟨p, hp, rfl⟩ := (Keyed.mem_update setNull_id).mp hp'
  have hne : r.target ≠ .customer customerId := by
    intro he
    obtain ⟨-, hc⟩ := customerId_of_target (he ▸ ht)
    simp only [setNull] at hc
    split at hc
    · cases hc
    · exact absurd hc ‹_›
  constructor
  · refine mem_references.mpr ⟨p, hp, horg, hid, ?_⟩
    cases hplace : r.place with
    | customerId =>
      rw [hplace] at ht
      simp only [AccessPolicy.targets, setNull] at ht
      split at ht
      · cases ht
      · exact ht
    | subjects | approverUserIds | approverGroupId | approverRoles =>
      rw [hplace] at ht
      exact ht
  · cases ht : r.target with
    | user id => rfl
    | group id => rfl
    | role key => rfl
    | customer id =>
      have hne : id ≠ customerId := fun he ↦ hne (ht.trans (he ▸ rfl))
      refine Option.ext fun i ↦ ?_
      rw [bearer_customer, bearer_customer]
      refine and_congr_right fun _ ↦ exists_congr fun c ↦ ?_
      rw [Keyed.mem_filter, and_assoc]
      exact and_congr_right fun _ ↦ ⟨And.right, fun hc ↦ ⟨decide_eq_true (hc.1 ▸ hne), hc⟩⟩

theorem deleteCustomer_sound (h : (s.links orgId).Sound) :
    (s.next orgId written (deleteCustomer s.tables orgId customerId options scope).1).Sound := by
  obtain ⟨servers, ht' | ⟨t₂, hpolicies, hdone⟩⟩ := deleteCustomer_cases s.tables
    orgId customerId options scope
  · rw [ht']
    exact h.advance (fun r _ _ ↦ rfl) fun r hr ↦ .inl hr
  · have hbearer : ∀ target, t₂.bearer orgId target = s.tables.bearer orgId target := by
      intro target
      rcases handlePolicies_eq_ok hpolicies with rfl | ⟨_, -, -, rfl⟩ | rfl
      · exact bearer_congr rfl rfl rfl rfl
      · exact bearer_congr rfl rfl rfl rfl
      · exact bearer_congr rfl rfl rfl rfl
    have hrefs : ∀ r ∈ t₂.references orgId,
        r ∈ s.tables.references orgId ∨ (s.tables.bearer orgId r.target).isSome :=
      fun r hr ↦ references_handlePolicies (t := { s.tables with servers }) hpolicies hr
    rcases hdone with ht' | hrow
    · rw [ht']
      exact h.advance (fun r _ _ ↦ hbearer r.target) hrefs
    · refine h.advance (fun r hr _ ↦ ?_) fun r hr ↦ ?_
      · exact (references_deleteCustomerRow hrow hr).2.trans (hbearer r.target)
      · exact hrefs r (references_deleteCustomerRow hrow hr).1

/-! ## One call -/

theorem roleKeys_of_roles_eq (hkeys : RoleKeysUnique orgId t) (h : t'.roles = t.roles) :
    RoleKeysUnique orgId t' := by
  intro r hr r' hr'
  rw [h] at hr hr'
  exact hkeys r hr r' hr'

theorem step_sound_iff {e : ReferenceCall} {s' : Referring} (h : (s.links orgId).Sound)
    (hkeys : RoleKeysUnique orgId s.tables) (hstep : s.step rules orgId e = some s') :
    RoleKeysUnique orgId s'.tables ∧
      ((s'.links orgId).Sound ↔ SparesApprovers orgId s.tables e) := by
  obtain ⟨t', ht', rfl⟩ := Option.map_eq_some_iff.mp hstep
  cases e with
  | createPolicy data scope id =>
    have hcall := toOption_eq_some.mp ht'
    obtain ⟨p, -, -, -, hinsert⟩ := createPolicy_eq_ok hcall
    obtain ⟨-, _, hwritten⟩ := insertPolicy_eq_ok hinsert
    exact ⟨roleKeys_of_roles_eq hkeys (by rw [hwritten]),
      iff_of_true (createPolicy_sound h hcall) trivial⟩
  | updatePolicy id data scope =>
    have hcall := toOption_eq_some.mp ht'
    obtain ⟨-, -, -, hwrite⟩ := updatePolicy_eq_ok hcall
    obtain ⟨-, -, hwritten⟩ := writePolicy_eq_ok hwrite
    exact ⟨roleKeys_of_roles_eq hkeys (by rw [hwritten]),
      iff_of_true (updatePolicy_sound h hcall) trivial⟩
  | deleteUser userId ref actor =>
    have hcall := toOption_eq_some.mp ht'
    refine ⟨roleKeys_of_roles_eq hkeys ?_, deleteUser_sound_iff h hcall⟩
    simp only [deleteUser, bind_eq_ok, pure_eq_ok] at hcall
    obtain ⟨-, -, -, -, -, -, -, -, rfl⟩ := hcall
    rfl
  | deleteGroup groupId =>
    have hcall := toOption_eq_some.mp ht'
    refine ⟨roleKeys_of_roles_eq hkeys ?_, deleteGroup_sound_iff h hcall⟩
    simp only [deleteGroup, bind_eq_ok, pure_eq_ok] at hcall
    obtain ⟨-, -, rfl⟩ := hcall
    rfl
  | deleteRole actor id ref => exact deleteRole_sound_iff h hkeys (toOption_eq_some.mp ht')
  | createRole actor data id =>
    obtain ⟨hkeys', hsound⟩ := createRole_sound h hkeys (toOption_eq_some.mp ht')
    exact ⟨hkeys', iff_of_true hsound trivial⟩
  | deleteCustomer customerId options scope =>
    obtain rfl := Option.some.inj ht'
    refine ⟨roleKeys_of_roles_eq hkeys ?_, iff_of_true (deleteCustomer_sound h) trivial⟩
    exact deleteCustomer_roles

end

/-! ## Runs of calls -/

/-- In every run from sound links, they stay sound just when every call spares the
approvers of policies. -/
theorem run_sound_iff {rules : TextRules} {orgId : Id} {s s' : Referring} {es : List ReferenceCall}
    (h : (s.links orgId).Sound) (hkeys : RoleKeysUnique orgId s.tables) :
    Run (Referring.step rules orgId) (fun _ _ s ↦ (s.links orgId).Sound) s es s' ↔
      Run (Referring.step rules orgId) (fun s e _ ↦ SparesApprovers orgId s.tables e) s es s' := by
  constructor
  · intro hrun
    refine hrun.mono_of_invariant
      (I := fun s ↦ (s.links orgId).Sound ∧ RoleKeysUnique orgId s.tables) ⟨h, hkeys⟩ ?_
    rintro s e s' ⟨hsound, hkeys⟩ hstep hsound'
    obtain ⟨hkeys', hiff⟩ := step_sound_iff hsound hkeys hstep
    exact ⟨⟨hsound', hkeys'⟩, hiff.mp hsound'⟩
  · intro hrun
    refine hrun.mono_of_invariant
      (I := fun s ↦ (s.links orgId).Sound ∧ RoleKeysUnique orgId s.tables) ⟨h, hkeys⟩ ?_
    rintro s e s' ⟨hsound, hkeys⟩ hstep hspares
    obtain ⟨hkeys', hiff⟩ := step_sound_iff hsound hkeys hstep
    exact ⟨⟨hiff.mpr hspares, hkeys'⟩, hiff.mpr hspares⟩

/-! ## A key that comes back -/

def opsTenancy : Tenancy where
  roles := { rows := [{ id := "r1", orgId := "o1", key := "ops", name := "ops", baseRole := .member }] }
  accessPolicies := { rows :=
    [{ id := "p1", orgId := "o1", maxSessionDuration := 60, approverRoles := ["ops"] }] }

def opsReferring : Referring where
  tables := opsTenancy
  recorded r := opsTenancy.bearer "o1" r.target

def opsActor : Actor := { userId := "u1", tier := .admin, permissions := [] }

theorem opsReferring_sound : (opsReferring.links "o1").Sound := by
  change ∀ r ∈ opsTenancy.references "o1", (opsTenancy.bearer "o1" r.target).isSome ∧
    opsTenancy.bearer "o1" r.target = opsTenancy.bearer "o1" r.target
  decide

theorem roleKeysUnique_opsReferring : RoleKeysUnique "o1" opsReferring.tables := by
  change ∀ r ∈ opsTenancy.roles.rows, ∀ r' ∈ opsTenancy.roles.rows, _
  decide

def secondPolicy : ReferenceCall :=
  .createPolicy { name := some "second", effect := some .allow, maxSessionDuration := some 60,
                  approverRoles := some ["ops"] } .unscoped "p2"

theorem run_sound_iff_secondPolicy : ∃ s',
    Run (Referring.step plainText "o1") (fun _ _ s ↦ (s.links "o1").Sound) opsReferring
      [secondPolicy] s' :=
  ⟨_, (run_sound_iff opsReferring_sound roleKeysUnique_opsReferring).mpr (.single rfl trivial)⟩

/-- The role is deleted and another is created with its name; the policy now has
the members of the new role for approvers. -/
theorem recreated_role_approves : ∃ s',
    Run (Referring.step plainText "o1") free opsReferring
      [.deleteRole opsActor "r1" none, .createRole opsActor { name := some "ops" } "r2"] s' ∧
    (opsReferring.links "o1").Sound ∧
    (⟨"p1", .approverRoles, .role "ops"⟩ : Reference) ∈ s'.tables.references "o1" ∧
    s'.recorded ⟨"p1", .approverRoles, .role "ops"⟩ = some "r1" ∧
    s'.tables.bearer "o1" (.role "ops") = some "r2" ∧ ¬ (s'.links "o1").Sound := by
  have hrun : (exec (Referring.step plainText "o1") opsReferring
      [.deleteRole opsActor "r1" none, .createRole opsActor { name := some "ops" } "r2"]).any
      (fun s' ↦ decide ((⟨"p1", .approverRoles, .role "ops"⟩ : Reference) ∈ s'.tables.references "o1" ∧
        s'.recorded ⟨"p1", .approverRoles, .role "ops"⟩ = some "r1" ∧
        s'.tables.bearer "o1" (.role "ops") = some "r2")) = true := by
    decide
  obtain ⟨s', hs', hend⟩ := (Option.any_eq_true _ _).mp hrun
  obtain ⟨hmem, hrecorded, hbearer⟩ := of_decide_eq_true hend
  refine ⟨s', run_of_exec hs', opsReferring_sound, hmem, hrecorded, hbearer, fun hsound ↦ ?_⟩
  have hsame : s'.tables.bearer "o1" (.role "ops") =
      s'.recorded ⟨"p1", .approverRoles, .role "ops"⟩ := (hsound _ hmem).2
  rw [hrecorded, hbearer] at hsame
  exact absurd hsame (by decide)

end Shellius
