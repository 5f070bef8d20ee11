import Shellius.Import.Meaning

/-!
# Records that a row overwrites

What a row does to the customer, the group, the user or the server that it overwrites.  The first
three keep every column that the row leaves out.  A server loses its labels and its address, and
keeps the rest (`keptServer_iff`); the Keystore then sets how one logs in to it, which no column
says.
-/

namespace Shellius.Import

open Lib Action

variable {env : Surroundings} {job : ImportJob} {row : ImportRow} {orgId : Id} {raw : Raw}
  {w v : Working} {actor : Option Actor}

theorem text_or {column : String} {a : Option String} (h : raw.omits [column] = true) :
    (text (raw.get column)).or a = a := by
  rw [text_of_isBlank (Raw.omits_singleton h)]
  rfl

theorem lower_or {column : String} {a : Option String} (h : raw.omits [column] = true) :
    (truthy (some (lower env (raw.get column)))).or a = a := by
  rw [lower_of_isBlank (Raw.omits_singleton h)]
  rfl

/-! ## Customers and groups -/

def KeepsCustomer (raw : Raw) (c : CustomerRow) (v : Working) : Prop :=
  ∃ c', v.db.customers.find c.id = some c' ∧ c.Kept raw c'

theorem commitCustomer_ensures {c : CustomerRow}
    (hc : w.db.customerOf orgId (truthy (some (lower env (row.raw.get "slug"))))
      (str (row.raw.get "name")) = some c) :
    Ensures (KeepsCustomer row.raw c) (commitCustomer env orgId row true)
      (fun _ ↦ KeepsCustomer row.raw c) w := by
  have hfind : w.db.customers.find c.id = some c := Keyed.find_key (List.mem_of_find?_eq_some hc)
  unfold commitCustomer saveCustomer
  rw [ensures_bind, ensures_bind, ensures_get, hc]
  dsimp only
  rw [if_pos rfl]
  unfold updateCustomer
  rw [ensures_bind]
  let patch := CustomerRow.patch (str (row.raw.get "name")) (text (row.raw.get "description"))
  have hpatch : ∀ b : CustomerRow, (patch b).id = b.id := fun _ ↦ rfl
  refine ⟨patch c, ?_, ?_, rfl, rfl, rfl⟩
  · show (w.db.customers.change c.id patch).find c.id = some (patch c)
    rw [Keyed.find_change hpatch, if_pos rfl, hfind]
    rfl
  · intro h
    exact text_or h

def KeepsGroup (raw : Raw) (g : GroupRow) (v : Working) : Prop :=
  ∃ g', v.db.groups.find g.id = some g' ∧ g.Kept raw g'

theorem commitGroup_ensures {g : GroupRow}
    (hg : w.db.groupNamed orgId (str (row.raw.get "name")) = some g) :
    Ensures (KeepsGroup row.raw g) (commitGroup env orgId row true)
      (fun _ ↦ KeepsGroup row.raw g) w := by
  have hfind : w.db.groups.find g.id = some g := Keyed.find_key (List.mem_of_find?_eq_some hg)
  unfold commitGroup saveGroup
  rw [ensures_bind, ensures_bind, ensures_get, hg]
  dsimp only
  rw [if_pos rfl]
  unfold updateGroup
  rw [ensures_bind]
  let patch := GroupRow.patch (text (row.raw.get "description"))
  have hpatch : ∀ b : GroupRow, (patch b).id = b.id := fun _ ↦ rfl
  refine ⟨patch g, ?_, ?_, rfl, rfl, rfl, rfl⟩
  · show (w.db.groups.change g.id patch).find g.id = some (patch g)
    rw [Keyed.find_change hpatch, if_pos rfl, hfind]
    rfl
  · intro h
    exact text_or h

/-! ## Users -/

def KeepsUser (raw : Raw) (u : ScopedUser) (v : Working) : Prop :=
  ∃ u', v.db.users.find u.id = some u' ∧ KeptUser raw u u'

theorem KeptUser.refl (u : ScopedUser) : KeptUser raw u u := ⟨fun _ ↦ ⟨rfl, rfl⟩, fun _ ↦ rfl, rfl⟩

theorem checkUpdate_role {t : Tenancy} {userId : Id} {data : UserData} {edit : UserEdit}
    (h : checkUpdate env.rules t orgId userId data actor = .ok edit) (hid : data.roleId = none)
    (hrole : data.role = none) : edit.role = none := by
  simp only [checkUpdate, bind_eq_ok, pure_eq_ok] at h
  obtain ⟨existing, -, -, -, -, -, -, -, name, -, email, -, role, hedit, status, -, managerId, -,
    rfl⟩ := h
  have hasked : requestedRole env.rules t orgId data = .ok none := by
    unfold requestedRole
    rw [hid, hrole]
    rfl
  rw [checkRole, hasked] at hedit
  exact (pure_eq_ok.mp hedit).symm

theorem checkUpdate_others {t : Tenancy} {userId : Id} {data : UserData} {edit : UserEdit}
    (h : checkUpdate env.rules t orgId userId data actor = .ok edit) :
    (data.email = none → edit.email = none) ∧ (data.status = none → edit.status = none) ∧
      (data.managerId = none → edit.managerId = none) := by
  simp only [checkUpdate, bind_eq_ok, pure_eq_ok] at h
  obtain ⟨existing, -, -, -, -, -, -, -, name, -, email, hemail, role, -, status, hstatus,
    managerId, hmanager, rfl⟩ := h
  refine ⟨fun hd ↦ ?_, fun hd ↦ ?_, fun hd ↦ ?_⟩
  · rw [hd] at hemail
    exact (Except.ok.inj hemail).symm
  · rw [hd] at hstatus
    exact (Except.ok.inj hstatus).symm
  · rw [hd] at hmanager
    exact (Except.ok.inj hmanager).symm

theorem keptUser_updateUser {u : ScopedUser} (hu : w.db.users.find u.id = some u) :
    ∃ u', (Shellius.updateUser env.rules w.db.tenancy orgId u.id
      (userInput raw (resolveManagerId env w orgId raw)) actor).1.users.find u.id = some u' ∧
        KeptUser raw u u' := by
  have hsame : ∀ {t₁}, applyGroupMembership w.db.tenancy orgId u.id none actor = .ok t₁ →
      t₁.users = w.db.users := fun happly ↦ congrArg Tenancy.users (Except.ok.inj happly).symm
  rcases updateUser_cases with hc | ⟨edit, t₁, hcheck, happly, hc | hc⟩
  · rw [hc]
    exact ⟨u, hu, .refl u⟩
  · rw [hc, hsame happly]
    exact ⟨u, hu, .refl u⟩
  · rw [hc]
    have hfind : (t₁.users.update (editUser u.id edit) editUser_id).find u.id =
        some (edit.apply u) := by
      rw [Keyed.find_update, hsame happly, hu, Option.map_some, editUser, if_pos rfl]
    obtain ⟨hemail, hstatus, hmanager⟩ := checkUpdate_others hcheck
    refine ⟨edit.apply u, hfind, fun h ↦ ?_, fun h ↦ ?_, ?_⟩
    · have hrole := checkUpdate_role hcheck rfl (text_of_isBlank (Raw.omits_singleton h))
      unfold UserEdit.apply
      rw [hrole]
      exact ⟨rfl, rfl⟩
    · have hnone : resolveManagerId env w orgId raw = none := by
        have hemail : managerEmail env raw = "" := lower_of_isBlank (Raw.either_of_omits h)
        unfold resolveManagerId
        rw [if_pos hemail]
      unfold UserEdit.apply
      rw [hmanager (by rw [userInput, hnone]; rfl)]
      rfl
    · unfold UserEdit.apply
      rw [hemail rfl, hstatus rfl]
      rfl

theorem commitUser_ensures {u : ScopedUser}
    (hu : w.db.userWithEmail orgId (lower env (row.raw.get "email")) = some u) :
    Ensures (KeepsUser row.raw u) (commitUser env orgId row true actor)
      (fun _ ↦ KeepsUser row.raw u) w := by
  have hfind : w.db.users.find u.id = some u := Keyed.find_key (List.mem_of_find?_eq_some hu)
  unfold commitUser saveUser
  rw [ensures_bind, ensures_bind, ensures_get, hu]
  dsimp only
  rw [if_pos rfl]
  unfold updateUser
  rw [ensures_bind, ensures_bind, ensures_get]
  unfold write
  rw [ensures_bind, ensures_modify, ensures_lift]
  exact ⟨fun _ _ ↦ keptUser_updateUser hfind, fun _ _ ↦ keptUser_updateUser hfind⟩

/-! ## Servers -/

/-- A server as an overwrite leaves it: the row is written over it, and the Keystore may then have
set how one logs in to it. -/
structure Patched (env : Surroundings) (raw : Raw) (s s' : ServerRow) : Prop where
  written : ∃ protocol environment,
    enumValue protocols (serverInput env raw).protocol = .ok protocol ∧
    enumValue environments (serverInput env raw).environment = .ok environment ∧
    s' = { s.patch env (serverInput env raw) protocol environment with
      authMode := s'.authMode, credentialId := s'.credentialId }

theorem checkServer_eq_ok {servers : Keyed fun s : ServerRow ↦ s.id} {id : Id} {data : ServerInput}
    {enums : Option ServerProtocol × Option Environment}
    (h : checkServer servers id data = .ok enums) :
    enumValue protocols data.protocol = .ok enums.1 ∧
      enumValue environments data.environment = .ok enums.2 := by
  simp only [checkServer, bind_eq_ok, pure_eq_ok] at h
  obtain ⟨protocol, hprotocol, environment, henvironment, -, -, -, -, rfl⟩ := h
  exact ⟨hprotocol, henvironment⟩

theorem enumValue_omitted {α : Type} {values : List (String × α)} {column : String} {a : Option α}
    (h : raw.omits [column] = true)
    (ha : enumValue values (truthy (some (lower env (raw.get column)))) = .ok a) : a = none := by
  rw [lower_of_isBlank (Raw.omits_singleton h)] at ha
  exact (Except.ok.inj ha).symm

/-- A server that is overwritten keeps what the row leaves out, as long as it had neither labels
nor an address that the row does not say. -/
theorem keptServer_iff {s s' : ServerRow} (hhost : s.hostname = str (raw.get "hostname"))
    (h : Patched env raw s s') :
    s.Kept raw s' ↔ (raw.omits ["labels"] → s.labels = []) ∧
      (raw.omits addressColumns → s.ipAddress = "") := by
  obtain ⟨protocol, environment, hprotocol, henvironment, hs'⟩ := h.written
  have hlabels : raw.omits ["labels"] → s'.labels = [] := by
    intro ho
    rw [hs']
    exact labelsToArray_of_isBlank (Raw.omits_singleton ho)
  have haddress : raw.omits addressColumns → s'.ipAddress = "" := by
    intro ho
    rw [hs']
    show trim (str (raw.either addressColumns)) = ""
    rw [str_of_isBlank (Raw.either_of_omits ho)]
    decide
  constructor
  · intro hkept
    exact ⟨fun ho ↦ (hkept.labels ho).symm.trans (hlabels ho),
      fun ho ↦ (hkept.ipAddress ho).symm.trans (haddress ho)⟩
  · rintro ⟨hl, ha⟩
    constructor
    · intro ho
      rw [haddress ho, ha ho]
    · intro ho
      rw [hs']
      exact text_or ho
    · intro ho
      rw [hs']
      exact text_or ho
    · intro ho
      rw [hs']
      show (int (raw.get "port")).getD s.port = s.port
      rw [int_of_isBlank (Raw.omits_singleton ho)]
      rfl
    · intro ho
      rw [hs', enumValue_omitted ho hprotocol]
      rfl
    · intro ho
      rw [hs', enumValue_omitted ho henvironment]
      rfl
    · intro ho
      rw [hlabels ho, hl ho]
    · intro ho
      rw [hs']
      exact text_or ho
    · intro ho
      rw [hs']
      exact text_or ho
    · intro ho
      rw [hs']
      show (if bool env (raw.get "dynamicIp") then some true else none).getD s.dynamicIp =
        s.dynamicIp
      rw [bool_of_isBlank (Raw.omits_singleton ho)]
      rfl
    · intro ho
      rw [hs']
      show (text (raw.get "sshUser")).getD s.sshUser = s.sshUser
      rw [text_of_isBlank (Raw.omits_singleton ho)]
      rfl
    · intro ho
      rw [hs']
      exact text_or ho
    · intro ho
      rw [hs']
      show ((truthy (rdpPassword env raw)).map env.keystore.encrypt).or s.rdpPasswordEncrypted =
        s.rdpPasswordEncrypted
      unfold rdpPassword
      rw [text_of_isBlank (Raw.omits_singleton ho)]
      rfl
    · intro ho
      rw [hs']
      exact lower_or ho
    · intro ho
      rw [hs']
      exact text_or ho
    · intro ho
      rw [hs']
      exact text_or ho
    · rw [hs', hhost]
      exact ⟨rfl, rfl, rfl, rfl, rfl⟩

theorem ServerRow.Kept.refl (s : ServerRow) : s.Kept raw s :=
  ⟨fun _ ↦ rfl, fun _ ↦ rfl, fun _ ↦ rfl, fun _ ↦ rfl, fun _ ↦ rfl, fun _ ↦ rfl, fun _ ↦ rfl,
    fun _ ↦ rfl, fun _ ↦ rfl, fun _ ↦ rfl, fun _ ↦ rfl, fun _ ↦ rfl, fun _ ↦ rfl, fun _ ↦ rfl,
    fun _ ↦ rfl, fun _ ↦ rfl, rfl, rfl, rfl, rfl, rfl⟩

theorem find_withVault {store : Keystore.Store} {id : Id} :
    (w.withVault store).db.servers.find id = (w.db.servers.find id).map (.withLogin store) :=
  Keyed.find_update (ServerRow.withLogin_id store)

def OverwritesServer (env : Surroundings) (raw : Raw) (s : ServerRow) (v : Working) : Prop :=
  v.db.servers.find s.id = some s ∨ ∃ s', v.db.servers.find s.id = some s' ∧ Patched env raw s s'

theorem commitServer_ensures {s : ServerRow}
    (hs : w.db.serverNamed job.orgId (str (row.raw.get "hostname")) = some s) :
    Ensures (OverwritesServer env row.raw s) (commitServer env job row true)
      (fun _ v ↦ ∃ s', v.db.servers.find s.id = some s' ∧ Patched env row.raw s s') w := by
  have hfind : w.db.servers.find s.id = some s := Keyed.find_key (List.mem_of_find?_eq_some hs)
  unfold commitServer saveServer
  rw [ensures_bind, ensures_bind, ensures_get, ensures_bind, ensures_orFail]
  refine ⟨fun customerId _ ↦ ?_, fun _ ↦ .inl hfind⟩
  rw [hs]
  dsimp only
  rw [if_pos rfl]
  unfold updateServer
  rw [ensures_bind, ensures_bind, ensures_get, ensures_bind, ensures_lift]
  refine ⟨fun _ _ ↦ ?_, fun _ _ ↦ .inl hfind⟩
  rw [ensures_bind, ensures_lift]
  refine ⟨fun enums henums ↦ ?_, fun _ _ ↦ .inl hfind⟩
  obtain ⟨hprotocol, henvironment⟩ := checkServer_eq_ok henums
  let patch := ServerRow.patch env (serverInput env row.raw) enums.1 enums.2
  have hpatch : ∀ b : ServerRow, (patch b).id = b.id := fun _ ↦ rfl
  have hwritten : (w.db.servers.change s.id patch).find s.id = some (patch s) := by
    rw [Keyed.find_change hpatch, if_pos rfl, hfind]
    rfl
  unfold write
  rw [ensures_modify, ensures_pure, ensures_bind]
  unfold remember
  rw [ensures_modify, ensures_bind]
  unfold markRow write
  rw [ensures_modify, ensures_bind, ensures_modify]
  unfold materializeIdentity
  rw [ensures_bind]
  unfold cuid
  rw [ensures_bind, ensures_get, ensures_bind, ensures_set, ensures_pure, ensures_bind,
    ensures_bind, ensures_get, ensures_bind, ensures_set, ensures_pure]
  have hvault : ∀ {u : Working} (store : Keystore.Store),
      u.db.servers.find s.id = some (patch s) →
        ∃ s', (u.withVault store).db.servers.find s.id = some s' ∧ Patched env row.raw s s' := by
    intro u store hu
    refine ⟨(patch s).withLogin store, ?_, ⟨⟨enums.1, enums.2, hprotocol, henvironment, rfl⟩⟩⟩
    rw [find_withVault, hu]
    rfl
  exact ensures_zoom (ensures_of_forall (fun store ↦ .inr (hvault store hwritten))
    fun _ store ↦ hvault store hwritten)

end Shellius.Import
