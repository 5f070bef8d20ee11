import Shellius.Auth.ApiTokens

/-!
# How strong a token is

The twin of a token's owner is the same user with a role whose permissions are exactly those of
the token.  Whatever the token's owner does with the token, the twin should do in their own
name, with the same outcome.

Every call that reads `req.user` keeps to this.  An evaluation does not: `loadSubject` takes the
permissions from the row of the user again, so a token goes by the full role of its owner when
policies are evaluated and requests are submitted.
-/

namespace Shellius.Auth

open Lib

/-! ## The twin -/

/-- The role `r` stands for the one the user holds, with these permissions. -/
structure StandsIn (t : Tenancy) (u : ScopedUser) (permissions : List String) (r : NamedRole) :
    Prop where
  orgId : r.orgId ≠ u.orgId
  /-- Policies that name the role of the user name this one. -/
  key : r.key = ((t.assignedRole u).map fun a ↦ a.key).getD ""
  isSystem : r.isSystem = false
  permissions : r.permissions = permissions

/-- The organization, with the role `r` added and held by the user. -/
structure Org.Twin (userId : Id) (r : NamedRole) (o o' : Org) : Prop where
  tenancy : o.tenancy.Twin userId r o'.tenancy
  organizations : o'.organizations = o.organizations
  credentials : o'.credentials = o.credentials
  servers : o'.servers = o.servers
  accessRequests : o'.accessRequests = o.accessRequests

/-- A call has the same answer in both runs and leaves twins again. -/
structure SameOutcome (userId : Id) (r : NamedRole) (x y : Except ApiError Answer × Org) : Prop where
  answer : x.1 = y.1
  org : Org.Twin userId r x.2 y.2

/-- The permissions that bypass policies and production approval do not decide the call, whether
they are these or those of the request. -/
def Call.Indifferent (o : Org) (req : RequestUser) (held : List String) : Call → Prop
  | .submit _ body => (body.params req).Indifferent o.database held req.permissions
  | .evaluate body => "policies.view" ∈ req.permissions → body.userId = req.userId →
      (body.params req).Indifferent o.database held req.permissions
  | .accessIntents serverIds => req.orgId ≠ "" → req.userId ≠ "" →
      namesOutOfScope o.database req (namedServers serverIds) = false →
      ∀ s ∈ requestedServers o.database req.orgId ((namedServers serverIds).map some),
        Shellius.Indifferent o.database req.orgId req.userId s none held req.permissions
  | _ => True

/-! ## The tables of both views -/

section

variable {o o' : Org} {u : ScopedUser} {r : NamedRole} {orgId id : Id} {held : List String}

theorem Org.assignedRole_database (v : ScopedUser) :
    o.database.assignedRole v.toUser = (o.tenancy.assignedRole v).map NamedRole.toRole := by
  unfold Database.assignedRole Tenancy.assignedRole
  cases v.roleId with
  | none => rfl
  | some k =>
    rw [Option.bind_some, Option.bind_some]
    change (o.tenancy.roles.rows.map NamedRole.toRole).find? _ = _
    rw [List.find?_map]
    rfl

theorem Org.user_database :
    o.database.user orgId id = (o.tenancy.user orgId id).map ScopedUser.toUser := by
  have hfind : o.tenancy.users.rows.find? (fun u ↦ decide (u.id = id ∧ u.orgId = orgId)) =
      o.tenancy.user orgId id := by
    cases hu : o.tenancy.user orgId id with
    | none =>
      rw [List.find?_eq_none]
      intro v hv hp
      have := Tenancy.user_eq_some.mpr ⟨hv, of_decide_eq_true hp⟩
      rw [hu] at this
      cases this
    | some u =>
      obtain ⟨hmem, hp⟩ := Tenancy.user_eq_some.mp hu
      cases hf : o.tenancy.users.rows.find? (fun u ↦ decide (u.id = id ∧ u.orgId = orgId)) with
      | none =>
        rw [List.find?_eq_none] at hf
        exact absurd (decide_eq_true hp) (hf u hmem)
      | some v =>
        have hpv : v.id = id ∧ v.orgId = orgId := by simpa using List.find?_some hf
        rw [Keyed.ext (List.mem_of_find?_eq_some hf) hmem (hpv.1.trans hp.1.symm)]
  unfold Database.user
  change (o.tenancy.users.rows.map ScopedUser.toUser).find? _ = _
  rw [List.find?_map, ← hfind]
  rfl

theorem Org.permissions_database (hu : o.tenancy.user orgId id = some u) :
    (loadSubject o.database id orgId).permissions = o.tenancy.permissionsOf u := by
  simp only [loadSubject, Org.user_database, hu, Option.map_some, Org.assignedRole_database]
  rfl

theorem Org.Twin.database (h : Org.Twin u.id r o o') {permissions : List String}
    (hr : StandsIn o.tenancy u permissions r) (hu : u ∈ o.tenancy.users) :
    Database.Twin u.id r.toRole o.database o'.database where
  organizations := h.organizations
  roles := by
    change o'.tenancy.roles.rows.map NamedRole.toRole = _
    rw [h.tenancy.roles, List.map_append]
    rfl
  users := by
    change o'.tenancy.users.rows.map ScopedUser.toUser = _
    rw [h.tenancy.users_rows, List.map_map]
    change _ = (o.tenancy.users.rows.map ScopedUser.toUser).map (holdRole u.id r.id)
    rw [List.map_map]
    rfl
  groups := congrArg (fun g ↦ g.rows.map ScopedGroup.toGroup) h.tenancy.groups
  groupMemberships := h.tenancy.groupMemberships
  credentials := h.credentials
  servers := h.servers
  accessPolicies := congrArg Keyed.rows h.tenancy.accessPolicies
  fresh := by
    intro x hx
    obtain ⟨y, hy, rfl⟩ := List.mem_map.mp hx
    exact h.tenancy.ne_of_mem_roles hy
  unheld := by
    intro v hv
    obtain ⟨w, hw, rfl⟩ := List.mem_map.mp hv
    exact h.tenancy.unheld w hw
  key := by
    intro v hv hid
    obtain ⟨w, hw, rfl⟩ := List.mem_map.mp hv
    obtain rfl := Keyed.ext hw hu hid
    rw [Org.assignedRole_database, Option.map_map]
    change truthy (some r.key) = truthy ((o.tenancy.assignedRole w).map fun a ↦ a.key)
    rw [hr.key]
    cases o.tenancy.assignedRole w with
    | none => rfl
    | some a => rfl

/-! ## The two requests -/

theorem apiTokenAuth_eq_ok {t : Tenancy} {now : Millis} {token : ApiToken} {req : RequestUser}
    (h : apiTokenAuth t now (some token) = .ok req) :
    ∃ u ∈ t.users, u.id = token.userId ∧ u.orgId = token.orgId ∧
      req = hydrateRequestUser t u (some (effectivePermissions t u token.scopes)) := by
  simp only [apiTokenAuth, bind_eq_ok, demand_eq_ok, require_eq_ok, pure_eq_ok] at h
  obtain ⟨_, ⟨⟩, -, -, -, -, u, hu, rfl⟩ := h
  obtain ⟨hu, hp⟩ := Option.filter_eq_some_iff.mp hu
  obtain ⟨hmem, hid⟩ := Keyed.find_eq_some.mp hu
  exact ⟨u, hmem, hid, (of_decide_eq_true hp).1, rfl⟩

theorem hydrateRequestUser_twin (h : o.tenancy.Twin u.id r o'.tenancy) {scopes : List String}
    (hr : StandsIn o.tenancy u (effectivePermissions o.tenancy u scopes) r) :
    hydrateRequestUser o'.tenancy (withRole u.id r.id u) none =
      { hydrateRequestUser o.tenancy u (some (effectivePermissions o.tenancy u scopes)) with
        roleId := some r.id } := by
  have hpermissions : o'.tenancy.permissionsOf (withRole u.id r.id u) =
      effectivePermissions o.tenancy u scopes := by
    unfold Tenancy.permissionsOf
    rw [h.assignedRole_self rfl]
    change permissionsOfRole r.toRole = _
    rw [permissionsOfRole, if_neg (by simp [isOwnerRole, hr.isSystem])]
    rw [hr.permissions, normalizePermissions_effectivePermissions]
  have hroleId : (withRole u.id r.id u).roleId = some r.id := if_pos rfl
  unfold hydrateRequestUser
  rw [hpermissions, h.resolveScope, hroleId]
  rfl

/-! ## Calls that read the request -/

theorem Org.Twin.commit (h : Org.Twin u.id r o o') {x y : Except ApiError Tenancy}
    (hxy : Alike (Tenancy.Twin u.id r) x y) : SameOutcome u.id r (o.commit x) (o'.commit y) := by
  cases hxy with
  | error e => exact ⟨rfl, h⟩
  | ok htenancy => exact ⟨rfl, { h with tenancy := htenancy }⟩

theorem gate {α β : Type} {R : α → β → Prop} {req : RequestUser} {roleId : Option Id} {key : String}
    {f : Except ApiError α} {g : Except ApiError β} (hfg : Alike R f g) :
    Alike R (requirePermission req key >>= fun _ ↦ f)
      (requirePermission { req with roleId } key >>= fun _ ↦ g) := by
  unfold requirePermission
  exact Alike.bind (Alike.require Iff.rfl) fun _ _ _ ↦ hfg

theorem shut {α β : Type} {R : α → β → Prop} {scopes : List String} {key : String}
    (hkey : key ∈ nonDelegablePermissions) {roleId : Option Id} {req : RequestUser}
    (hreq : req.permissions = effectivePermissions o.tenancy u scopes)
    {f : Except ApiError α} {g : Except ApiError β} :
    Alike R (requirePermission req key >>= fun _ ↦ f)
      (requirePermission { req with roleId } key >>= fun _ ↦ g) := by
  have hnot : key ∉ req.permissions := hreq ▸ notMem_effectivePermissions hkey
  unfold requirePermission require
  rw [if_neg hnot]
  exact .error _

theorem updateUser_roleId {rules : TextRules} {t : Tenancy} {data : UserData} {a : Actor}
    {roleId : Option Id} :
    updateUser rules t orgId id data (some { a with roleId }) =
      updateUser rules t orgId id data (some a) := by
  have hcheck : checkUpdate rules t orgId id data (some { a with roleId }) =
      checkUpdate rules t orgId id data (some a) := by
    unfold checkUpdate checkText checkRole checkStatus checkNewManager
    simp only [reduceCtorEq, or_false]
    rfl
  unfold updateUser
  rw [hcheck]
  rfl

theorem checkAccount_twin (h : o.tenancy.Twin u.id r o'.tenancy) {a : Actor} {roleId : Option Id}
    (ha : a.userId = u.id) (action : AccountAction) :
    Alike Eq (checkAccount o.tenancy orgId a action id)
      (checkAccount o'.tenancy orgId { a with roleId } action id) := by
  unfold checkAccount
  rw [h.user]
  refine Alike.bind Alike.demand ?_
  rintro v _ ⟨hv, rfl⟩
  have hmanage : assertCanManageUser (some { a with roleId }) (withRole u.id r.id v)
      (o'.tenancy.assignedRole (withRole u.id r.id v)) action.what =
      assertCanManageUser (some a) v (o.tenancy.assignedRole v) action.what :=
    h.assertCanManageUser ha (Tenancy.user_eq_some.mp hv).1
  rw [hmanage]
  exact Alike.of_eq rfl

/-! ## Calls that evaluate policies -/

variable {req : RequestUser} {roleId : Option Id} {now : Millis}

theorem submit_twin (h : Database.Twin req.userId r.toRole o.database o'.database)
    (hheld : (loadSubject o.database req.userId req.orgId).permissions = held)
    (hkept : (loadSubject o'.database req.userId req.orgId).permissions = req.permissions)
    (body : SubmitBody) :
    submit o.database now id (body.params req) =
        submit o'.database now id (body.params { req with roleId }) ↔
      (body.params req).Indifferent o.database held req.permissions := by
  have htwin : submit o'.database now id (body.params req) = _ := h.submit
  have hparams : body.params { req with roleId } = body.params req := rfl
  rw [hparams, htwin, submit_eq_submitWith, ← submitWith_eq_iff, ← hheld, ← hkept]
  rfl

theorem evaluate_twin (h : Database.Twin req.userId r.toRole o.database o'.database)
    (hheld : (loadSubject o.database req.userId req.orgId).permissions = held)
    (hkept : (loadSubject o'.database req.userId req.orgId).permissions = req.permissions)
    (body : EvaluateBody) :
    (evaluate o.database (body.params req)).map Evaluation.outcome =
        (evaluate o'.database (body.params req)).map Evaluation.outcome ↔
      (body.userId = req.userId →
        (body.params req).Indifferent o.database held req.permissions) := by
  rw [evaluate_eq_evaluateWith, evaluate_eq_evaluateWith, h.evaluateWith]
  by_cases hself : body.userId = req.userId
  · have hheld' : (loadSubject o.database (body.params req).userId
        (body.params req).orgId).permissions = held := by
      rw [← hheld, ← hself]
      rfl
    have hkept' : (loadSubject o'.database (body.params req).userId
        (body.params req).orgId).permissions = req.permissions := by
      rw [← hkept, ← hself]
      rfl
    rw [hheld', hkept', evaluateWith_outcome_eq_iff]
    exact ⟨fun hi _ ↦ hi, fun hi ↦ hi hself⟩
  · have hsame : loadSubject o'.database (body.params req).userId (body.params req).orgId =
        loadSubject o.database (body.params req).userId (body.params req).orgId :=
      h.loadSubject_of_ne hself
    rw [hsame]
    exact iff_of_true rfl fun hself' ↦ absurd hself' hself

theorem accessIntents_twin (h : Database.Twin req.userId r.toRole o.database o'.database)
    (hheld : (loadSubject o.database req.userId req.orgId).permissions = held)
    (hkept : (loadSubject o'.database req.userId req.orgId).permissions = req.permissions)
    (ho : req.orgId ≠ "") (serverIds : List (Option Id)) :
    getAccessIntentsBulk o.database req serverIds =
        getAccessIntentsBulk o'.database { req with roleId } serverIds ↔
      Call.Indifferent o req held (.accessIntents serverIds) := by
  have hscope : namesOutOfScope o'.database { req with roleId } (namedServers serverIds) =
      namesOutOfScope o.database req (namedServers serverIds) := by
    unfold namesOutOfScope
    rw [h.servers]
  unfold getAccessIntentsBulk Call.Indifferent
  dsimp only
  rw [hscope]
  by_cases hids : namedServers serverIds = []
  · rw [if_pos hids, if_pos hids, hids]
    refine iff_of_true rfl fun _ _ _ s hs ↦ ?_
    have hmem := (mem_requestedServers.mp hs).1
    rw [List.map_nil] at hmem
    cases hmem
  · rw [if_neg hids, if_neg hids]
    cases hout : namesOutOfScope o.database req (namedServers serverIds) with
    | true => simp
    | false =>
      by_cases hu : req.userId = ""
      · simp [evaluateBulk, hu, ho]
      · simp only [Bool.false_eq_true, if_false]
        rw [h.evaluateBulk_outcomes_eq_iff _ ho hu, hheld, hkept]
        exact ⟨fun hi _ _ _ ↦ hi, fun hi ↦ hi ho hu trivial⟩

/-! ## Every call -/

theorem Org.Twin.reply_iff {α : Type} (h : Org.Twin u.id r o o') {answer : α → Answer}
    (hanswer : Function.Injective answer) {x y : Except ApiError α} :
    SameOutcome u.id r (o.reply answer x) (o'.reply answer y) ↔ x = y := by
  constructor
  · intro hsame
    have hmap : x.map answer = y.map answer := hsame.answer
    cases x with
    | error e =>
      cases y with
      | error e' => exact congrArg Except.error (Except.error.inj hmap)
      | ok b => cases hmap
    | ok a =>
      cases y with
      | error e' => cases hmap
      | ok b => exact congrArg Except.ok (hanswer (Except.ok.inj hmap))
  · rintro rfl
    exact ⟨rfl, h⟩

theorem Org.Twin.record_iff (h : Org.Twin u.id r o o') {x y : Except ApiError AccessRequest} :
    SameOutcome u.id r (o.record x) (o'.record y) ↔ x = y := by
  cases x with
  | error e =>
    cases y with
    | error e' =>
      exact ⟨fun hsame ↦ congrArg Except.error (Except.error.inj hsame.answer), fun he ↦
        ⟨congrArg Except.error (Except.error.inj he), h⟩⟩
    | ok row' => exact iff_of_false (fun hsame ↦ by cases hsame.answer) fun he ↦ by cases he
  | ok row =>
    cases y with
    | error e' => exact iff_of_false (fun hsame ↦ by cases hsame.answer) fun he ↦ by cases he
    | ok row' =>
      constructor
      · intro hsame
        have hrows : o'.accessRequests ++ [row'] = o.accessRequests ++ [row] :=
          hsame.org.accessRequests
        rw [h.accessRequests] at hrows
        have hrow := List.append_cancel_left hrows
        exact congrArg Except.ok (List.cons.inj hrow).1.symm
      · intro he
        obtain rfl := Except.ok.inj he
        exact ⟨rfl, { h with accessRequests := congrArg (· ++ [row]) h.accessRequests }⟩

theorem gated_eq_iff {α : Type} {x y : Except ApiError α} :
    (requirePermission req "policies.view" >>= fun _ ↦ x) =
        (requirePermission { req with roleId } "policies.view" >>= fun _ ↦ y) ↔
      ("policies.view" ∈ req.permissions → x = y) := by
  unfold requirePermission require
  by_cases hgate : "policies.view" ∈ req.permissions
  · rw [if_pos hgate]
    exact ⟨fun he _ ↦ he, fun he ↦ he hgate⟩
  · rw [if_neg hgate]
    exact iff_of_true rfl fun hgate' ↦ absurd hgate' hgate

theorem indifferent_of_orgId (ho : req.orgId = "") (call : Call) : call.Indifferent o req held := by
  cases call with
  | submit id body =>
    intro s hs
    exact absurd ho (checkSubmit_ok hs).orgId
  | evaluate body => exact fun _ _ hne ↦ absurd ho hne
  | accessIntents serverIds => exact fun hne ↦ absurd ho hne
  | createRole | updateRole | resetRole | deleteRole | createUser | updateUser | assignUserScope
  | deleteUser | softDeleteSelf | account => exact trivial

theorem respond_twin {rules : TextRules} {scopes : List String} (h : Org.Twin u.id r o o')
    (hu : u ∈ o.tenancy.users)
    (hr : StandsIn o.tenancy u (effectivePermissions o.tenancy u scopes) r)
    (hreq : req = hydrateRequestUser o.tenancy u (some (effectivePermissions o.tenancy u scopes)))
    (call : Call) :
    SameOutcome u.id r (respond rules now o req call)
        (respond rules now o' { req with roleId := some r.id } call) ↔
      call.Indifferent o req (o.tenancy.permissionsOf u) := by
  have huserId : req.userId = u.id := by rw [hreq]; rfl
  have horgId : req.orgId = u.orgId := by rw [hreq]; rfl
  have hpermissions : req.permissions = effectivePermissions o.tenancy u scopes := by rw [hreq]; rfl
  by_cases ho : req.orgId = ""
  · have hrefused (o : Org) (req : RequestUser) (ho : req.orgId = "") :
        respond rules now o req call = (.error ⟨401, "Organization context required", none⟩, o) := by
      unfold respond
      rw [if_pos ho]
    rw [hrefused o req ho, hrefused o' { req with roleId := some r.id } ho]
    exact iff_of_true ⟨rfl, h⟩ (indifferent_of_orgId ho call)
  have huser : o.tenancy.user req.orgId req.userId = some u :=
    Tenancy.user_eq_some.mpr ⟨hu, huserId.symm, horgId.symm⟩
  have hdatabase : Database.Twin req.userId r.toRole o.database o'.database := by
    rw [huserId]
    exact h.database hr hu
  have hheld : (loadSubject o.database req.userId req.orgId).permissions =
      o.tenancy.permissionsOf u := Org.permissions_database huser
  have hkept : (loadSubject o'.database req.userId req.orgId).permissions = req.permissions := by
    have huser' : o'.tenancy.user req.orgId req.userId = some (withRole u.id r.id u) := by
      rw [h.tenancy.user, huser]
      rfl
    rw [Org.permissions_database huser', hpermissions]
    exact congrArg RequestUser.permissions (hydrateRequestUser_twin h.tenancy hr)
  have hrole : r.orgId ≠ req.orgId := by
    rw [horgId]
    exact hr.orgId
  have hactor : (actorFromReq req).userId = u.id := huserId
  unfold respond
  rw [if_neg ho, if_neg (show ¬ ({ req with roleId := some r.id } : RequestUser).orgId = "" from ho)]
  cases call with
  | submit id body =>
    exact h.record_iff.trans (submit_twin hdatabase hheld hkept body)
  | evaluate body =>
    refine (h.reply_iff fun _ _ he ↦ Answer.ruling.inj he).trans (gated_eq_iff.trans ?_)
    exact forall_congr' fun _ ↦ evaluate_twin hdatabase hheld hkept body
  | accessIntents serverIds =>
    exact (h.reply_iff (fun _ _ he ↦ Answer.rulings.inj he)).trans
      (accessIntents_twin hdatabase hheld hkept ho serverIds)
  | createRole data id =>
    exact iff_of_true (h.commit (shut (by decide) hpermissions)) trivial
  | updateRole id data =>
    exact iff_of_true (h.commit (shut (by decide) hpermissions)) trivial
  | resetRole id =>
    exact iff_of_true (h.commit (shut (by decide) hpermissions)) trivial
  | deleteRole id reassignToRoleId =>
    exact iff_of_true (h.commit (shut (by decide) hpermissions)) trivial
  | createUser data id =>
    refine iff_of_true (h.commit (gate ?_)) trivial
    exact h.tenancy.createUser hrole (invited data) req.scope
  | updateUser userId data =>
    have hupdate : _ ∧ Tenancy.Twin u.id r
        (updateUser rules o.tenancy req.orgId userId data (some (actorFromReq req))).1 _ :=
      h.tenancy.updateUser hrole hactor userId data
    have hroleId : updateUser rules o'.tenancy req.orgId userId data
        (some { actorFromReq req with roleId := some r.id }) =
        updateUser rules o'.tenancy req.orgId userId data (some (actorFromReq req)) :=
      updateUser_roleId
    dsimp only [actorFromReq] at hroleId hupdate ⊢
    rw [hroleId]
    refine iff_of_true ⟨?_, ?_⟩ trivial
    · exact congrArg (Except.map fun _ ↦ Answer.done) hupdate.1.symm
    · exact { h with tenancy := hupdate.2 }
  | assignUserScope userId accessScope customerIds =>
    refine iff_of_true (h.commit (gate ?_)) trivial
    exact h.tenancy.assignUserScope userId accessScope customerIds req.scope
  | deleteUser userId reassignReportsTo =>
    exact iff_of_true (h.commit (shut (by decide) hpermissions)) trivial
  | softDeleteSelf =>
    exact iff_of_true (h.commit (h.tenancy.softDeleteSelf req.userId now)) trivial
  | account action userId =>
    refine iff_of_true ?_ trivial
    have hsame : Alike Eq
        (requirePermission req action.permission >>= fun _ ↦
          checkAccount o.tenancy req.orgId (actorFromReq req) action userId)
        (requirePermission { req with roleId := some r.id } action.permission >>= fun _ ↦
          checkAccount o'.tenancy req.orgId { actorFromReq req with roleId := some r.id }
            action userId) := gate (checkAccount_twin h.tenancy hactor action)
    exact ⟨congrArg (Except.map fun _ ↦ Answer.done) hsame.eq, h⟩

theorem indifferent_of_bypasses
    (hpolicies : "access.bypass_policies" ∈ held ↔ "access.bypass_policies" ∈ req.permissions)
    (hprod : "access.prod_bypass" ∈ held ↔ "access.prod_bypass" ∈ req.permissions) (call : Call) :
    call.Indifferent o req held := by
  cases call with
  | submit id body =>
    intro s _
    refine ⟨indifferent_of_iff hpolicies hprod, ?_⟩
    intro _ huses
    exact absurd (usesBypass_congr hpolicies hprod).1 huses
  | evaluate body =>
    intro _ _ _ _ _ _ server _
    exact indifferent_of_iff hpolicies hprod
  | accessIntents serverIds =>
    intro _ _ _ s _
    exact indifferent_of_iff hpolicies hprod
  | createRole | updateRole | resetRole | deleteRole | createUser | updateUser | assignUserScope
  | deleteUser | softDeleteSelf | account => exact trivial

end

/-- A call with a token has the outcome it has for the twin of the token's owner exactly if the
owner's permissions to bypass policies and production approval do not decide it where the token
lacks them. -/
theorem token_like_twin {rules : TextRules} {now : Millis} {o o' : Org} {token : ApiToken}
    {req : RequestUser} {u : ScopedUser} {r : NamedRole}
    (htoken : apiTokenAuth o.tenancy now (some token) = .ok req)
    (hu : u ∈ o.tenancy.users) (hid : u.id = token.userId) (htwin : Org.Twin u.id r o o')
    (hr : StandsIn o.tenancy u (effectivePermissions o.tenancy u token.scopes) r) (call : Call) :
    SameOutcome u.id r (respond rules now o req call)
        (respond rules now o' (hydrateRequestUser o'.tenancy (withRole u.id r.id u) none) call) ↔
      call.Indifferent o req (o.tenancy.permissionsOf u) := by
  obtain ⟨v, hv, hvid, -, hreq⟩ := apiTokenAuth_eq_ok htoken
  obtain rfl := Keyed.ext hv hu (hvid.trans hid.symm)
  rw [hydrateRequestUser_twin htwin.tenancy hr, ← hreq]
  exact respond_twin htwin hu hr hreq call

/-! ## A super admin's token -/

def sampleOrg : Org where
  tenancy :=
    { roles := ⟨[{ id := "role-1", orgId := "org-1", key := "super_admin", baseRole := .superAdmin
                   isSystem := true, name := "Super admin" }], by decide⟩
      users := ⟨[{ id := "user-1", orgId := "org-1", role := .superAdmin
                   roleId := some "role-1" }], by decide⟩ }
  servers := [{ id := "server-1", orgId := "org-1", customerId := "customer-1"
                provisionStatus := "provisioned" }]

def sampleOwner : ScopedUser :=
  { id := "user-1", orgId := "org-1", role := .superAdmin, roleId := some "role-1" }

def sampleRole (permissions : List String) : NamedRole :=
  { id := "role-2", orgId := "", key := "super_admin", baseRole := .superAdmin, permissions
    name := "Super admin" }

def sampleTwin (permissions : List String) : Org where
  tenancy :=
    { roles := ⟨sampleOrg.tenancy.roles.rows ++ [sampleRole permissions],
        show ["role-1", "role-2"].Nodup by decide⟩
      users := ⟨[withRole "user-1" "role-2" sampleOwner], by decide⟩ }
  servers := sampleOrg.servers

def sampleToken (scopes : List String) : ApiToken :=
  { orgId := "org-1", userId := "user-1", scopes }

def sampleRequest (scopes : List String) : RequestUser :=
  hydrateRequestUser sampleOrg.tenancy sampleOwner
    (some (effectivePermissions sampleOrg.tenancy sampleOwner scopes))

theorem twin_sample (permissions : List String) :
    Org.Twin "user-1" (sampleRole permissions) sampleOrg (sampleTwin permissions) where
  tenancy :=
    { customers := rfl
      servers := rfl
      roles := rfl
      users := rfl
      groups := rfl
      groupMemberships := rfl
      userCustomerScopes := rfl
      groupCustomerScopes := rfl
      accessPolicies := rfl
      present := ⟨sampleOwner, List.mem_singleton_self _, rfl⟩
      unheld := fun u hu ↦ by
        obtain rfl := List.mem_singleton.mp hu
        exact show some "role-1" ≠ some "role-2" by decide }
  organizations := rfl
  credentials := rfl
  servers := rfl
  accessRequests := rfl

theorem standsIn_sample (permissions : List String) :
    StandsIn sampleOrg.tenancy sampleOwner permissions (sampleRole permissions) where
  orgId := show "" ≠ "org-1" by decide
  key := rfl
  isSystem := rfl
  permissions := rfl

def sampleCall : Call :=
  .submit "request-1" { serverId := "server-1", reason := "roll out the fix"
                        requestedDuration := 3600 }

def bypassScopes : List String := ["access.request", "access.prod_bypass", "access.bypass_policies"]

theorem effectivePermissions_sample : effectivePermissions sampleOrg.tenancy sampleOwner
    bypassScopes = bypassScopes := by decide +kernel

/-- With both bypasses among its scopes, the token is let in like the twin. -/
theorem token_like_twin_bypass :
    SameOutcome "user-1" (sampleRole bypassScopes)
      (respond plainText 0 sampleOrg (sampleRequest bypassScopes) sampleCall)
      (respond plainText 0 (sampleTwin bypassScopes)
        (hydrateRequestUser (sampleTwin bypassScopes).tenancy
          (withRole "user-1" "role-2" sampleOwner) none) sampleCall) := by
  have htoken : apiTokenAuth sampleOrg.tenancy 0 (some (sampleToken bypassScopes)) =
      .ok (sampleRequest bypassScopes) := rfl
  have hrole : StandsIn sampleOrg.tenancy sampleOwner
      (effectivePermissions sampleOrg.tenancy sampleOwner (sampleToken bypassScopes).scopes)
      (sampleRole bypassScopes) :=
    effectivePermissions_sample ▸ standsIn_sample bypassScopes
  refine (token_like_twin htoken (List.mem_singleton_self _) rfl (twin_sample bypassScopes) hrole
    sampleCall).mpr ?_
  have hheld : ∀ k ∈ bypassScopes, k ∈ sampleOrg.tenancy.permissionsOf sampleOwner := by
    decide +kernel
  have hkept : (sampleRequest bypassScopes).permissions = bypassScopes := effectivePermissions_sample
  refine indifferent_of_bypasses ?_ ?_ sampleCall
  · rw [hkept]
    exact iff_of_true (hheld _ (by decide)) (by decide)
  · rw [hkept]
    exact iff_of_true (hheld _ (by decide)) (by decide)

/-- A token for access requests only is let in without any policy, as its owner would be; the
twin is refused. -/
theorem token_stronger_than_twin :
    ¬ ∀ (rules : TextRules) (now : Millis) (o o' : Org) (token : ApiToken) (req : RequestUser)
        (u : ScopedUser) (r : NamedRole),
      apiTokenAuth o.tenancy now (some token) = .ok req → u ∈ o.tenancy.users →
      u.id = token.userId → Org.Twin u.id r o o' →
      StandsIn o.tenancy u (effectivePermissions o.tenancy u token.scopes) r → ∀ call,
      SameOutcome u.id r (respond rules now o req call)
        (respond rules now o' (hydrateRequestUser o'.tenancy (withRole u.id r.id u) none) call) := by
  intro hclaim
  have heffective : effectivePermissions sampleOrg.tenancy sampleOwner ["access.request"] =
      ["access.request"] := by decide +kernel
  have hrole : StandsIn sampleOrg.tenancy sampleOwner
      (effectivePermissions sampleOrg.tenancy sampleOwner ["access.request"])
      (sampleRole ["access.request"]) :=
    heffective ▸ standsIn_sample ["access.request"]
  have hsame := (hclaim plainText 0 sampleOrg (sampleTwin ["access.request"])
    (sampleToken ["access.request"]) (sampleRequest ["access.request"]) sampleOwner
    (sampleRole ["access.request"]) rfl (List.mem_singleton_self _) rfl (twin_sample _) hrole
    sampleCall).answer
  have hgranted : (respond plainText 0 sampleOrg (sampleRequest ["access.request"])
      sampleCall).1 = .ok .done := by decide +kernel
  have hrefused : (respond plainText 0 (sampleTwin ["access.request"])
      (hydrateRequestUser (sampleTwin ["access.request"]).tenancy
        (withRole "user-1" "role-2" sampleOwner) none) sampleCall).1 =
      .error ⟨403, "Access denied by policy: No matching policy", none⟩ := by decide +kernel
  have hdiffer : (.ok .done : Except ApiError Answer) =
      .error ⟨403, "Access denied by policy: No matching policy", none⟩ :=
    hgranted.symm.trans (hsame.trans hrefused)
  cases hdiffer

end Shellius.Auth
