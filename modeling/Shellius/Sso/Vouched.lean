import Shellius.Lib.Pool
import Shellius.Sso.Providers

/-!
# Who vouched for an identity

An identity is found by its provider and the subject, and says nothing of who issued the subject.
A row of a provider may be given another protocol or another issuer while identities are attached
to it, and then a subject of the new issuer is signed in as whoever the old one vouched for.
`steady` is the condition on a call that this does not happen: it is enough, and a call that is
accepted without it leaves an identity with an issuer that did not vouch for it.
-/

namespace Shellius.Sso

open Lib

/-! ## Runs -/

inductive Op
  | createProvider (orgId : Id) (data : ProviderData) (drawn : Drawn)
  | updateProvider (orgId id : Id) (data : ProviderData)
  | upsert (orgId : Id) (data : LegacyData) (drawn : Drawn)
  | deleteProvider (orgId id : Id) (force : Bool)
  | /-- A sign-in begins, and the preset of the environment becomes a row. -/
    materializeEnvGoogle (orgId : Id) (drawn : Drawn)
  | signIn (orgId providerId : Id) (profile : Profile) (now : Millis) (userId identityId : Id)
  | finalizePendingLink (pending : PendingLink) (now : Millis) (identityId : Id)
  | completeConnect (orgId providerId userId : Id) (profile : Profile) (now : Millis)
      (identityId : Id)

section

variable (env : Surroundings)

/-- The state that a call leaves, if it is accepted. -/
def perform (s : State) : Op → Except ApiError State
  | .createProvider orgId data drawn => createProvider env s orgId data drawn
  | .updateProvider orgId id data => updateProvider env s orgId id data
  | .upsert orgId data drawn => upsert env s orgId data drawn
  | .deleteProvider orgId id force => deleteProvider s orgId id force
  | .materializeEnvGoogle orgId drawn => materializeEnvGoogle env s orgId drawn
  | .signIn orgId providerId profile now userId identityId =>
    (s.signIn env orgId providerId profile now userId identityId).map Prod.fst
  | .finalizePendingLink pending now identityId => s.finalizePendingLink pending now identityId
  | .completeConnect orgId providerId userId profile now identityId =>
    s.completeConnect env orgId providerId userId profile now identityId

/-- One call after another; what is refused changes nothing. -/
def step (s : State) (op : Op) : Option State :=
  match perform env s op with
  | .ok s' => some s'
  | .error _ => some s

/-- An installation where nobody has signed in through a provider yet. -/
def State.initial (d : Directory) : State := { directory := { d with identities := .empty } }

end

/-! ## The condition -/

/-- Whether identities are attached to a provider. -/
def State.attached (s : State) (id : Id) : Bool :=
  s.directory.identities.rows.any (·.ssoConfigId = id)

/-- An update names no other protocol and no other issuer than the row has. -/
def ProviderData.keeps (data : ProviderData) (p : Provider) : Bool :=
  if p.provider = "saml" then data.samlIdpEntityId.all fun x ↦ some x = p.samlIdpEntityId
  else (data.presetId.all fun x ↦ protocolOf (some x) = p.provider) &&
    data.issuerUrl.all (· = p.issuerUrl)

/-- A write of the legacy endpoint names the protocol and the issuer that the row has. -/
def LegacyData.keeps (data : LegacyData) (p : Provider) : Bool :=
  data.provider = p.provider && (p.provider = "saml" || data.issuerUrl = p.issuerUrl)

/-- A call that gives a provider another protocol or another issuer finds no identities there. -/
def steady (s : State) : Op → Bool
  | .updateProvider orgId id data =>
    (s.provider orgId id).all fun p ↦ !s.attached p.id || data.keeps p
  | .upsert orgId data _ => (s.first orgId).all fun p ↦ !s.attached p.id || data.keeps p
  | .createProvider .. | .deleteProvider .. | .materializeEnvGoogle .. | .signIn ..
  | .finalizePendingLink .. | .completeConnect .. => true

/-- A call that meets the condition. -/
def Steady (s : State) (op : Op) (_ : State) : Prop := steady s op = true

/-! ## The invariant -/

/-- The provider of every identity has the protocol and the issuer that it had when the identity
was created, and the identity is of the account that it was created for. -/
def Vouched (s : State) : Prop :=
  ∀ i ∈ s.directory.identities, ∃ p ∈ s.providers, p.id = i.ssoConfigId ∧
    s.origins i.key = ⟨p.provider, p.issuer, i.userId⟩

/-- Every identity is of an account. -/
def Owned (d : Directory) : Prop := ∀ i ∈ d.identities, ∃ u ∈ d.users, u.id = i.userId

section

variable {env : Surroundings} {s s' : State} {d d' : Directory} {p p' : Provider} {q : Request}
  {u account : Account} {linkedNow : Bool} {op : Op} {orgId id : Id} {data : ProviderData}

/-! ## Rows of providers -/

theorem provider_spec (h : s.provider orgId id = some p) : p ∈ s.providers ∧ p.id = id := by
  obtain ⟨h, -⟩ := Option.filter_eq_some_iff.mp h
  exact Keyed.find_eq_some.mp h

theorem first_spec (h : s.first orgId = some p) : p ∈ s.providers := by
  have hmem := List.argmin_mem h
  exact (List.mem_filter.mp hmem).1

theorem Vouched.create (hs : Vouched s) (h : s.create p = .ok s') :
    Vouched s' ∧ s'.directory = s.directory := by
  rw [State.create] at h
  obtain ⟨providers, hinsert, rfl⟩ := map_eq_ok.mp h
  obtain ⟨hfree, rfl⟩ := Keyed.insert?_eq_some.mp (demand_eq_ok.mp hinsert)
  refine ⟨fun i hi ↦ ?_, rfl⟩
  obtain ⟨p, hp, hrest⟩ := hs i hi
  exact ⟨p, (Keyed.mem_insert hfree).mpr (.inl hp), hrest⟩

theorem mem_replace {r : Provider} : r ∈ (s.replace p').providers ↔
    r ∈ s.providers ∧ r.id ≠ p'.id ∨ r = p' ∧ ∃ p ∈ s.providers, p.id = p'.id := by
  rw [State.replace, Keyed.mem_update]
  constructor
  · rintro ⟨a, ha, rfl⟩
    by_cases hid : a.id = p'.id
    · exact .inr ⟨if_pos hid, a, ha, hid⟩
    · rw [if_neg hid]
      exact .inl ⟨ha, hid⟩
  · rintro (⟨hr, hid⟩ | ⟨rfl, p, hp, hid⟩)
    · exact ⟨r, hr, if_neg hid⟩
    · exact ⟨p, hp, if_pos hid⟩

theorem attached_iff : s.attached id = true ↔
    ∃ i ∈ s.directory.identities, i.ssoConfigId = id := by
  rw [State.attached, List.any_eq_true]
  exact exists_congr fun i ↦ and_congr_right fun _ ↦ decide_eq_true_iff

theorem vouched_replace (hs : Vouched s) (hp : p ∈ s.providers) (hid : p'.id = p.id) :
    Vouched (s.replace p') ↔ s.attached p.id = false ∨
      p'.provider = p.provider ∧ p'.issuer = p.issuer := by
  constructor
  · intro h
    by_cases hatt : s.attached p.id = true
    · obtain ⟨i, hi, hcfg⟩ := attached_iff.mp hatt
      obtain ⟨r, hr, hrid, horigin⟩ := h i hi
      obtain ⟨r', hr', hrid', horigin'⟩ := hs i hi
      obtain rfl := s.providers.ext hr' hp (hrid'.trans hcfg)
      rcases mem_replace.mp hr with ⟨-, hne⟩ | ⟨rfl, -⟩
      · exact absurd (hrid.trans (hcfg.trans hid.symm)) hne
      · obtain ⟨hprovider, hissuer, -⟩ := Origin.mk.inj (horigin.symm.trans horigin')
        exact .inr ⟨hprovider, hissuer⟩
    · exact .inl (Bool.eq_false_iff.mpr hatt)
  · intro h i hi
    obtain ⟨r, hr, hrid, horigin⟩ := hs i hi
    by_cases hcfg : i.ssoConfigId = p.id
    · rcases h with h | ⟨hprovider, hissuer⟩
      · have hatt : s.attached p.id = true := attached_iff.mpr ⟨i, hi, hcfg⟩
        exact absurd (hatt.symm.trans h) (by decide)
      · obtain rfl := s.providers.ext hr hp (hrid.trans hcfg)
        refine ⟨p', mem_replace.mpr (.inr ⟨rfl, r, hr, hid.symm⟩), hid.trans hrid, ?_⟩
        rw [hprovider, hissuer]
        exact horigin
    · refine ⟨r, mem_replace.mpr (.inl ⟨hr, fun h ↦ hcfg ?_⟩), hrid, horigin⟩
      exact hrid.symm.trans (h.trans hid)

theorem Vouched.remove (hs : Vouched s) (id : Id) : Vouched (s.remove id) := by
  intro i hi
  obtain ⟨hi, hne⟩ := Keyed.mem_filter.mp hi
  obtain ⟨p, hp, hid, horigin⟩ := hs i hi
  refine ⟨p, Keyed.mem_filter.mpr ⟨hp, ?_⟩, hid, horigin⟩
  rw [hid]
  exact hne

/-! ## Sign-ins -/

/-- What a call of `reconcileSsoUser` does when it signs somebody in. -/
structure SignedIn (q : Request) (d d' : Directory) (account : Account) : Prop where
  identities : d'.identities = d.identities.upsert (q.identityRow d account.id)
  linked : ∀ i, q.linkedIdentity d = some i → (∃ u ∈ d.users, u.id = i.userId) →
    account.id = i.userId
  users : ∀ u ∈ d.users, ∃ v ∈ d'.users, v.id = u.id
  account : ∃ v ∈ d'.users, v.id = account.id

theorem users_updateUser {f : Account → Account} (hid : ∀ u, (f u).id = u.id)
    (hrole : ∀ u, (f u).roleId = u.roleId ∧ (f u).role = u.role) (hu : u ∈ d.users) :
    ∃ v ∈ (d.updateUser id f hid hrole).users, v.id = u.id := by
  have hmem : (if u.id = id then f u else u) ∈ (d.updateUser id f hid hrole).users :=
    List.mem_map.mpr ⟨u, hu, rfl⟩
  refine ⟨_, hmem, ?_⟩
  split
  · exact hid u
  · rfl

theorem signInExisting_signedIn (hu : u ∈ d.users)
    (hlinked : ∀ i, q.linkedIdentity d = some i → (∃ u ∈ d.users, u.id = i.userId) →
      u.id = i.userId)
    (h : q.signInExisting d u linkedNow = .ok (d', .user account linkedNow)) :
    SignedIn q d d' account := by
  simp only [Request.signInExisting, bind_eq_ok, require_eq_ok, pure_eq_ok] at h
  obtain ⟨-, -, heq⟩ := h
  obtain ⟨rfl, hanswer⟩ := Prod.mk.inj heq
  obtain ⟨rfl, -⟩ := SignIn.user.inj hanswer
  have husers : ∀ v ∈ d.users, ∃ w ∈ (d.updateUser u.id q.signedInRow (fun _ ↦ rfl)
      fun _ ↦ ⟨rfl, rfl⟩).users, w.id = v.id := fun v hv ↦ users_updateUser _ _ hv
  exact ⟨rfl, hlinked, husers, husers u hu⟩

theorem provision_signedIn
    (hunlinked : ∀ {v : Account} i, q.linkedIdentity d = some i →
      (∃ u ∈ d.users, u.id = i.userId) → v.id = i.userId)
    (h : q.provision d = .ok (d', .user account linkedNow)) : SignedIn q d d' account := by
  simp only [Request.provision, Request.checkVerified, bind_eq_ok, require_eq_ok, demand_eq_ok,
    pure_eq_ok] at h
  obtain ⟨-, -, -, -, -, -, ⟨role, hrole⟩, -, d₁, hcreate, heq⟩ := h
  obtain ⟨rfl, hanswer⟩ := Prod.mk.inj heq
  obtain ⟨rfl, -⟩ := SignIn.user.inj hanswer
  simp only [Directory.createUser, bind_eq_ok, require_eq_ok, demand_eq_ok, pure_eq_ok] at hcreate
  obtain ⟨-, -, ⟨users, hinsert⟩, -, rfl⟩ := hcreate
  obtain ⟨hfree, rfl⟩ := Keyed.insert?_eq_some.mp hinsert
  refine ⟨?_, hunlinked, fun v hv ↦ ?_, ?_⟩
  · show Keyed.upsert _ _ = _
    rw [(joinGroup_users _ _ _).2]
    rfl
  · refine ⟨v, ?_, rfl⟩
    show v ∈ (Directory.joinGroup _ _ _).users
    rw [(joinGroup_users _ _ _).1]
    exact (Keyed.mem_insert hfree).mpr (.inl hv)
  · refine ⟨q.newUserRow role, ?_, rfl⟩
    show q.newUserRow role ∈ (Directory.joinGroup _ _ _).users
    rw [(joinGroup_users _ _ _).1]
    exact (Keyed.mem_insert hfree).mpr (.inr rfl)

theorem reconcile_signedIn (h : q.reconcile d = .ok (d', .user account linkedNow)) :
    SignedIn q d d' account := by
  simp only [Request.reconcile, bind_eq_ok, require_eq_ok] at h
  obtain ⟨-, -, -, -, h⟩ := h
  split at h
  · rename_i u hlinked
    obtain ⟨i, hi, hfind⟩ := Option.bind_eq_some_iff.mp hlinked
    have hanswer := (signInExisting_spec h).1
    obtain ⟨-, rfl⟩ := SignIn.user.inj hanswer
    refine signInExisting_signedIn (Keyed.mem_of_find hfind) (fun j hj _ ↦ ?_) h
    obtain rfl := Option.some.inj (hi.symm.trans hj)
    have hkey := Keyed.key_of_find hfind
    exact hkey
  · rename_i hnone
    have hunlinked : ∀ {v : Account} i, q.linkedIdentity d = some i →
        (∃ u ∈ d.users, u.id = i.userId) → v.id = i.userId := by
      rintro v i hi ⟨u, hu, hid⟩
      have hfind : q.linkedUser d = some u := by
        rw [Request.linkedUser, hi, Option.bind_some, ← hid]
        exact Keyed.find_key hu
      cases hnone.symm.trans hfind
    obtain ⟨found, hmatch, h⟩ := bind_eq_ok.mp h
    match found with
    | some (u, some mode) => cases pure_eq_ok.mp h
    | some (u, none) =>
      obtain ⟨hu, -⟩ := candidate_spec (matchEmail_spec hmatch).1
      obtain ⟨-, rfl⟩ := SignIn.user.inj (signInExisting_spec h).1
      exact signInExisting_signedIn hu hunlinked h
    | none => exact provision_signedIn hunlinked h

theorem reconcile_pendingLink {pending : PendingLink}
    (h : q.reconcile d = .ok (d', .pendingLink pending)) : d' = d := by
  refine (reconcile_ok h).otherwise fun u linkedNow heq ↦ ?_
  cases heq

/-- What `linkIdentityToUser` does: the subject is linked to the account, and was linked to
none. -/
theorem linkIdentityToUser_ok {l : Linking} {now : Millis} {identityId : Id}
    (h : linkIdentityToUser d l now identityId = .ok d') :
    (∀ i ∈ d.identities, i.key ≠ l.key) ∧
      (∀ i, i ∈ d'.identities ↔ i ∈ d.identities ∨ i = l.identity now identityId) ∧
      (∀ u ∈ d.users, ∃ v ∈ d'.users, v.id = u.id) ∧ ∃ u ∈ d.users, u.id = l.userId := by
  simp only [linkIdentityToUser, bind_eq_ok, require_eq_ok, demand_eq_ok, pure_eq_ok] at h
  obtain ⟨-, -, -, -, user, huser, -, -, identities, hinsert, rfl⟩ := h
  obtain ⟨hfree, rfl⟩ := Keyed.insert?_eq_some.mp hinsert
  obtain ⟨hfind, -⟩ := Option.filter_eq_some_iff.mp huser
  refine ⟨hfree, fun i ↦ Keyed.mem_insert hfree, fun u hu ↦ ?_, user, Keyed.mem_of_find hfind, ?_⟩
  · exact users_updateUser _ _ hu
  · have hkey := Keyed.key_of_find hfind
    exact hkey

/-! ## Steps -/

theorem Vouched.withOrigin {i : UserIdentity} {row : Provider} {subject : String} {userId : Id}
    (hs : Vouched s) (hrow : row ∈ s.providers) (hkey : i.key = (row.id, subject))
    (huser : i.userId = userId) (hfree : ∀ j ∈ s.directory.identities, j.key ≠ i.key)
    (hids : ∀ j ∈ d'.identities, j ∈ s.directory.identities ∨ j = i) :
    Vouched ({ s with directory := d' }.withOrigin row subject userId) := by
  intro j hj
  rcases hids j hj with hj | rfl
  · obtain ⟨p, hp, hid, horigin⟩ := hs j hj
    refine ⟨p, hp, hid, ?_⟩
    have hne : j.key ≠ (row.id, subject) := hkey ▸ hfree j hj
    exact (Function.update_of_ne hne _ _).trans horigin
  · obtain ⟨hcfg, -⟩ := Prod.mk.inj hkey
    refine ⟨row, hrow, hcfg.symm, ?_⟩
    show Function.update s.origins _ _ j.key = _
    rw [hkey, Function.update_self, huser]

theorem Owned.mono (hd : Owned d) (husers : ∀ u ∈ d.users, ∃ v ∈ d'.users, v.id = u.id)
    (hids : ∀ i ∈ d'.identities, i ∈ d.identities ∨ ∃ v ∈ d'.users, v.id = i.userId) :
    Owned d' := by
  intro i hi
  rcases hids i hi with hi | h
  · obtain ⟨u, hu, hid⟩ := hd i hi
    obtain ⟨v, hv, hvid⟩ := husers u hu
    exact ⟨v, hv, hvid.trans hid⟩
  · exact h

theorem link_ok {row : Provider} {l : Linking} {now : Millis} {identityId : Id} (hs : Vouched s)
    (hd : Owned s.directory) (hrow : row ∈ s.providers) (hid : l.ssoConfigId = row.id)
    (h : linkIdentityToUser s.directory l now identityId = .ok d') :
    Vouched ({ s with directory := d' }.withOrigin row l.subject l.userId) ∧ Owned d' := by
  obtain ⟨hfree, hids, husers, u, hu, huid⟩ := linkIdentityToUser_ok h
  refine ⟨hs.withOrigin (i := l.identity now identityId) hrow ?_ rfl hfree
    fun j hj ↦ (hids j).mp hj, ?_⟩
  · show (l.ssoConfigId, l.subject) = _
    rw [hid]
  · refine hd.mono husers fun i hi ↦ ((hids i).mp hi).imp_right ?_
    rintro rfl
    obtain ⟨v, hv, hvid⟩ := husers u hu
    exact ⟨v, hv, hvid.trans huid⟩

theorem signIn_ok {providerId : Id} {profile : Profile} {now : Millis} {userId identityId : Id}
    {answer : SignIn} (hs : Vouched s) (hd : Owned s.directory)
    (h : s.signIn env orgId providerId profile now userId identityId = .ok (s', answer)) :
    Vouched s' ∧ Owned s'.directory := by
  simp only [State.signIn, bind_eq_ok, demand_eq_ok, pure_eq_ok] at h
  obtain ⟨row, hrow, ⟨d', answer'⟩, hreconcile, h⟩ := h
  obtain ⟨hmem, -⟩ := provider_spec hrow
  cases answer' with
  | pendingLink pending =>
    obtain rfl := reconcile_pendingLink hreconcile
    obtain ⟨rfl, -⟩ := Prod.mk.inj h
    exact ⟨hs, hd⟩
  | user account linkedNow =>
    have hsigned := reconcile_signedIn hreconcile
    have hrowkey := identityRow_spec (q := State.request env row profile now userId identityId)
      (d := s.directory) account.id
    have hids : ∀ i ∈ d'.identities, i ∈ s.directory.identities ∨
        i = (State.request env row profile now userId identityId).identityRow s.directory
          account.id := by
      intro i hi
      rw [hsigned.identities] at hi
      exact (Keyed.mem_upsert.mp hi).symm.imp_left And.left
    have howned : Owned d' := by
      refine hd.mono hsigned.users fun i hi ↦ (hids i hi).imp_right ?_
      rintro rfl
      obtain ⟨v, hv, hvid⟩ := hsigned.account
      exact ⟨v, hv, hvid.trans hrowkey.2.symm⟩
    cases hlinked : (State.request env row profile now userId identityId).linkedIdentity
        s.directory with
    | none =>
      rw [hlinked] at h
      obtain ⟨rfl, -⟩ := Prod.mk.inj h
      refine ⟨hs.withOrigin hmem hrowkey.1 hrowkey.2 (fun j hj hkey ↦ ?_) hids, howned⟩
      exact Keyed.find_eq_none.mp hlinked j hj (hkey.trans hrowkey.1)
    | some i =>
      rw [hlinked] at h
      obtain ⟨rfl, -⟩ := Prod.mk.inj h
      obtain ⟨hi, hkey⟩ := Keyed.find_eq_some.mp hlinked
      refine ⟨fun j hj ↦ ?_, howned⟩
      rcases hids j hj with hj | rfl
      · exact hs j hj
      · obtain ⟨p, hp, hid, horigin⟩ := hs i hi
        obtain ⟨hcfg, -⟩ := Prod.mk.inj (hrowkey.1.trans hkey.symm)
        refine ⟨p, hp, hid.trans hcfg.symm, ?_⟩
        rw [hrowkey.1, hrowkey.2, hsigned.linked i hlinked (hd i hi)]
        exact hkey ▸ horigin

/-! ### Changing a provider -/

theorem updateSaml_ok (hsaml : p.provider = "saml") (h : updateSaml env p data = .ok p') :
    p'.id = p.id ∧ (p'.provider = p.provider ∧ p'.issuer = p.issuer ↔ data.keeps p = true) := by
  simp only [updateSaml, bind_eq_ok, pure_eq_ok] at h
  obtain ⟨-, -, columns, hcolumns, rfl⟩ := h
  simp only [samlWriteFields, bind_eq_ok, pure_eq_ok] at hcolumns
  obtain ⟨cert, -, rfl⟩ := hcolumns
  refine ⟨rfl, ?_⟩
  have hprovider : (commonFields env data p.toSsoConfig).provider = p.provider := rfl
  rw [Provider.issuer, Provider.issuer, ProviderData.keeps, if_pos hsaml, if_pos hsaml]
  simp only [hprovider, hsaml, if_true, true_and]
  cases data.samlIdpEntityId with
  | none => simp
  | some x => simp

theorem protocolOf_ne_saml (presetId : Option String) : protocolOf presetId ≠ "saml" := by
  unfold protocolOf
  split <;> decide

theorem updateOAuth_ok (hsaml : p.provider ≠ "saml") (h : updateOAuth env p data = .ok p') :
    p'.id = p.id ∧ (p'.provider = p.provider ∧ p'.issuer = p.issuer ↔ data.keeps p = true) := by
  simp only [updateOAuth, bind_eq_ok, pure_eq_ok] at h
  obtain ⟨-, -, -, -, -, -, rfl⟩ := h
  refine ⟨rfl, ?_⟩
  rw [Provider.issuer, Provider.issuer, ProviderData.keeps, if_neg hsaml, if_neg hsaml]
  have hissuer : (some (data.issuerUrl.getD p.issuerUrl) = some p.issuerUrl ↔
      (data.issuerUrl.all fun x ↦ decide (x = p.issuerUrl)) = true) := by
    cases data.issuerUrl with
    | none => simp
    | some url => simp
  cases hpreset : data.presetId with
  | none => simp [hsaml, hissuer]
  | some preset =>
    simp [protocolOf_ne_saml, hissuer]

theorem updateRow_ok (h : updateRow env p data = .ok p') :
    p'.id = p.id ∧ (p'.provider = p.provider ∧ p'.issuer = p.issuer ↔ data.keeps p = true) := by
  unfold updateRow at h
  split at h
  · rename_i hsaml
    exact updateSaml_ok hsaml h
  · rename_i hsaml
    exact updateOAuth_ok hsaml h

theorem legacyRow_keeps {legacy : LegacyData} :
    ((legacyRow env p legacy).provider = p.provider ∧
      (legacyRow env p legacy).issuer = p.issuer ↔ legacy.keeps p = true) := by
  rw [Provider.issuer, Provider.issuer, LegacyData.keeps, Bool.and_eq_true, Bool.or_eq_true,
    decide_eq_true_iff, decide_eq_true_iff, decide_eq_true_iff]
  show legacy.provider = p.provider ∧ (if legacy.provider = "saml" then p.samlIdpEntityId
    else some legacy.issuerUrl) = _ ↔ _
  refine and_congr_right fun hprovider ↦ ?_
  rw [hprovider]
  by_cases hsaml : p.provider = "saml"
  · simp [hsaml]
  · simp [hsaml]

/-! ### Every call -/

theorem perform_ok (hs : Vouched s) (hd : Owned s.directory) (h : perform env s op = .ok s') :
    (Vouched s' ↔ steady s op = true) ∧ Owned s'.directory := by
  have hcreate : ∀ {p}, s.create p = .ok s' → (Vouched s' ↔ true = true) ∧ Owned s'.directory := by
    intro p h
    obtain ⟨hvouched, hdir⟩ := hs.create h
    exact ⟨iff_of_true hvouched rfl, hdir.symm ▸ hd⟩
  have hreplace : ∀ {p p' : Provider} {keeps : Bool}, p ∈ s.providers → p'.id = p.id →
      (p'.provider = p.provider ∧ p'.issuer = p.issuer ↔ keeps = true) →
      (Vouched (s.replace p') ↔ (!s.attached p.id || keeps) = true) := by
    intro p p' keeps hp hid hkeeps
    rw [vouched_replace hs hp hid, hkeeps, Bool.or_eq_true, Bool.not_eq_true']
  cases op with
  | createProvider orgId data drawn =>
    change createProvider env s orgId data drawn = .ok s' at h
    unfold createProvider at h
    split at h
    · simp only [createSamlProvider, bind_eq_ok] at h
      obtain ⟨-, -, -, -, -, -, columns, -, h⟩ := h
      exact hcreate h
    · simp only [bind_eq_ok] at h
      obtain ⟨-, -, -, -, -, -, h⟩ := h
      exact hcreate h
  | updateProvider orgId id data =>
    change updateProvider env s orgId id data = .ok s' at h
    simp only [updateProvider, State.getProviderRow, bind_eq_ok, demand_eq_ok, pure_eq_ok] at h
    obtain ⟨p, hp, p', hrow, rfl⟩ := h
    obtain ⟨hid, hkeeps⟩ := updateRow_ok hrow
    refine ⟨?_, hd⟩
    rw [steady, hp, Option.all_some]
    exact hreplace (provider_spec hp).1 hid hkeeps
  | upsert orgId data drawn =>
    change upsert env s orgId data drawn = .ok s' at h
    unfold upsert at h
    rw [steady]
    split at h
    · rename_i p hp
      obtain rfl := pure_eq_ok.mp h
      rw [hp, Option.all_some]
      exact ⟨hreplace (first_spec hp) rfl legacyRow_keeps, hd⟩
    · rename_i hnone
      obtain ⟨-, -, h⟩ := bind_eq_ok.mp h
      rw [hnone]
      exact hcreate h
  | deleteProvider orgId id force =>
    change deleteProvider s orgId id force = .ok s' at h
    simp only [deleteProvider, bind_eq_ok, pure_eq_ok] at h
    obtain ⟨p, -, -, -, rfl⟩ := h
    refine ⟨iff_of_true (hs.remove p.id) rfl, ?_⟩
    exact hd.mono (fun u hu ↦ ⟨u, hu, rfl⟩) fun i hi ↦ .inl (Keyed.mem_filter.mp hi).1
  | materializeEnvGoogle orgId drawn =>
    change materializeEnvGoogle env s orgId drawn = .ok s' at h
    unfold materializeEnvGoogle at h
    split at h
    · obtain rfl := pure_eq_ok.mp h
      exact ⟨iff_of_true hs rfl, hd⟩
    · split at h
      · obtain rfl := pure_eq_ok.mp h
        exact ⟨iff_of_true hs rfl, hd⟩
      · exact hcreate h
  | signIn orgId providerId profile now userId identityId =>
    obtain ⟨⟨s', answer⟩, hsign, rfl⟩ := map_eq_ok.mp h
    obtain ⟨hvouched, howned⟩ := signIn_ok hs hd hsign
    exact ⟨iff_of_true hvouched rfl, howned⟩
  | finalizePendingLink pending now identityId =>
    change s.finalizePendingLink pending now identityId = .ok s' at h
    simp only [State.finalizePendingLink, bind_eq_ok, demand_eq_ok, pure_eq_ok] at h
    obtain ⟨row, hrow, d', hlink, rfl⟩ := h
    obtain ⟨hprovider, -⟩ := Option.filter_eq_some_iff.mp hrow
    obtain ⟨hmem, hid⟩ := provider_spec hprovider
    obtain ⟨hvouched, howned⟩ := link_ok hs hd hmem hid.symm hlink
    exact ⟨iff_of_true hvouched rfl, howned⟩
  | completeConnect orgId providerId userId profile now identityId =>
    change s.completeConnect env orgId providerId userId profile now identityId = .ok s' at h
    simp only [State.completeConnect, bind_eq_ok, demand_eq_ok, pure_eq_ok] at h
    obtain ⟨row, hrow, -, -, -, -, user, -, -, -, d', hlink, rfl⟩ := h
    obtain ⟨hvouched, howned⟩ := link_ok hs hd (provider_spec hrow).1 rfl hlink
    exact ⟨iff_of_true hvouched rfl, howned⟩

/-! ## The theorem -/

theorem inv_of_run {ops : List Op} (h : Run (step env) Steady (State.initial d) ops s) :
    Vouched s ∧ Owned s.directory := by
  refine h.invariant (I := fun s ↦ Vouched s ∧ Owned s.directory) ?_
    fun t op t' ht hstep hsteady ↦ ?_
  · exact ⟨fun i hi ↦ absurd hi Keyed.notMem_empty, fun i hi ↦ absurd hi Keyed.notMem_empty⟩
  · unfold step at hstep
    split at hstep
    · rename_i t'' hperform
      obtain rfl := Option.some.inj hstep
      obtain ⟨hvouched, howned⟩ := perform_ok ht.1 ht.2 hperform
      exact ⟨hvouched.mpr hsteady, howned⟩
    · obtain rfl := Option.some.inj hstep
      exact ht

theorem signIn_linked {providerId : Id} {profile : Profile} {now : Millis} {userId identityId : Id}
    {answer : SignIn} {row : Provider} {i : UserIdentity} (hd : Owned s.directory)
    (hrow : s.provider orgId providerId = some row) (hi : i ∈ s.directory.identities)
    (hkey : i.key = (row.id, profile.subject))
    (h : s.signIn env orgId providerId profile now userId identityId = .ok (s', answer)) :
    ∃ account linkedNow, answer = .user account linkedNow ∧ account.id = i.userId := by
  simp only [State.signIn, bind_eq_ok, demand_eq_ok, pure_eq_ok] at h
  obtain ⟨row', hrow', ⟨d', answer'⟩, hreconcile, h⟩ := h
  obtain rfl := Option.some.inj (hrow.symm.trans hrow')
  have hlinked : (State.request env row profile now userId identityId).linkedIdentity
      s.directory = some i := Keyed.find_eq_some.mpr ⟨hi, hkey⟩
  obtain ⟨u, hu, huid⟩ := hd i hi
  have huser : (State.request env row profile now userId identityId).linkedUser s.directory =
      some u := by
    rw [Request.linkedUser, hlinked, Option.bind_some, ← huid]
    exact Keyed.find_key hu
  have hanswer : ∃ account linkedNow, answer' = .user account linkedNow := by
    simp only [Request.reconcile, bind_eq_ok, require_eq_ok, huser] at hreconcile
    obtain ⟨-, -, -, -, hreconcile⟩ := hreconcile
    exact ⟨_, _, (signInExisting_spec hreconcile).1⟩
  obtain ⟨account, linkedNow, rfl⟩ := hanswer
  have hid := (reconcile_signedIn hreconcile).linked i hlinked ⟨u, hu, huid⟩
  rw [hlinked] at h
  obtain ⟨-, rfl⟩ := Prod.mk.inj h
  exact ⟨account, linkedNow, rfl, hid⟩

/-- In a run in which no provider is given another protocol or another issuer while identities are
attached to it, every identity belongs to the issuer that vouched for it, and a sign-in with a
linked subject signs in the account that the same subject of the same issuer was linked to.  The
first call that is accepted without the condition leaves an identity with an issuer that did not
vouch for it. -/
theorem identities_vouched {ops : List Op}
    (h : Run (step env) Steady (State.initial d) ops s) :
    Vouched s ∧
      (∀ orgId providerId profile now userId identityId row i s' answer,
        s.provider orgId providerId = some row → i ∈ s.directory.identities →
        i.key = (row.id, profile.subject) →
        s.signIn env orgId providerId profile now userId identityId = .ok (s', answer) →
        ∃ account linkedNow, answer = .user account linkedNow ∧
          s.origins i.key = ⟨row.provider, row.issuer, account.id⟩) ∧
      ∀ op s', perform env s op = .ok s' → steady s op = false → ¬ Vouched s' := by
  obtain ⟨hvouched, howned⟩ := inv_of_run h
  refine ⟨hvouched, ?_, ?_⟩
  · intro orgId providerId profile now userId identityId row i s' answer hrow hi hkey hsign
    obtain ⟨account, linkedNow, rfl, hid⟩ := signIn_linked howned hrow hi hkey hsign
    obtain ⟨p, hp, hpid, horigin⟩ := hvouched i hi
    obtain rfl := s.providers.ext hp (provider_spec hrow).1
      (hpid.trans (Prod.mk.inj hkey).1)
    exact ⟨account, linkedNow, rfl, hid ▸ horigin⟩
  · intro op s' hperform hsteady hvouched'
    have hiff := (perform_ok hvouched howned hperform).1
    exact absurd ((hiff.mp hvouched').symm.trans hsteady) (by decide)

end

/-! ## A provider that changes hands -/

def quiet : Surroundings where
  rules := plainText
  toLowerCase := id
  guardSsrf _ := .ok ()
  encrypt := id
  encryptIdpCerts := .ok
  envSecret _ := false
  callbackUrlFor id := id
  acsUrlFor id := id

def linkedOps : List Op := [
  .createProvider "o1" { presetId := some "github", clientSecret := some "x" } ⟨"c1", "", ""⟩,
  .signIn "o1" "c1" { subject := "42", email := some "ana@x", emailVerified := true } 1 "u2" "i1"]

def renamedOps : List Op := linkedOps ++ [.updateProvider "o1" "c1" { name := some "Code" }]

def flipped : Op :=
  .updateProvider "o1" "c1" { presetId := some "generic", issuerUrl := some "https://idp.example" }

def before : State := State.initial invitedDirectory

def taken : State := (exec (step quiet) before (linkedOps ++ [flipped])).getD before

def renamed : State := (execIf (step quiet) steady before renamedOps).getD before

theorem renamed_runs : execIf (step quiet) steady before renamedOps = some renamed :=
  (Option.getD_of_ne_none (Option.isSome_iff_ne_none.mp (by decide +kernel)) before).symm

theorem identities_vouched_renamed :
    Vouched renamed ∧
      (∀ orgId providerId profile now userId identityId row i s' answer,
        renamed.provider orgId providerId = some row → i ∈ renamed.directory.identities →
        i.key = (row.id, profile.subject) →
        renamed.signIn quiet orgId providerId profile now userId identityId = .ok (s', answer) →
        ∃ account linkedNow, answer = .user account linkedNow ∧
          renamed.origins i.key = ⟨row.provider, row.issuer, account.id⟩) ∧
      ∀ op s', perform quiet renamed op = .ok s' → steady renamed op = false → ¬ Vouched s' :=
  identities_vouched (run_of_execIf renamed_runs)

/-- An account that is linked to a user of GitHub ends up linked to whoever another issuer says
has the same number. -/
theorem flipped_not_vouched : ¬ ∀ ops s, Run (step quiet) free before ops s → Vouched s := by
  intro h
  have hrun : exec (step quiet) before (linkedOps ++ [flipped]) = some taken :=
    (Option.getD_of_ne_none (Option.isSome_iff_ne_none.mp (by decide +kernel)) before).symm
  have hbad : ∃ i ∈ taken.directory.identities.rows, ∀ p ∈ taken.providers.rows,
      taken.origins i.key ≠ ⟨p.provider, p.issuer, i.userId⟩ := by decide +kernel
  obtain ⟨i, hi, hne⟩ := hbad
  obtain ⟨p, hp, -, horigin⟩ := h _ _ (run_of_exec hrun) i hi
  exact hne p hp horigin

end Shellius.Sso
