import Shellius.Keystore.Vault
import Shellius.Lib.Pool

/-!
# Whose keys and identities are

An identity and the key it uses have the same owner, a server is bound to identities of its
organization only, and an identity has the secrets that its kind of login takes.

The calls that store a new key first and an identity with it afterwards pass through states with
a key that nothing uses yet, and stop there when the identity is refused; `AddsKeys` is what such
a state has in common with the one before.  Nothing takes a key or an identity of the organization
away from it except deleting it, so that the identities a commit remembers are the organization's
as long as they are there.
-/

namespace Shellius.Keystore

open Lib Action

/-! ## The invariant -/

def Store.HasKey (s : Store) (orgId : Id) (ownerId : Option Id) (id : Id) : Prop :=
  ∃ k ∈ s.sshKeys, k.id = id ∧ k.orgId = orgId ∧ k.ownerId = ownerId

/-- An identity has the secrets that its kind of login takes. -/
structure Credential.HoldsMaterial (c : Credential) : Prop where
  password : c.authType = "password" → c.passwordEncrypted.isSome
  key : c.authType = "key" → c.sshKeyId.isSome
  keyPassword : c.authType = "key_password" → c.sshKeyId.isSome ∧ c.passwordEncrypted.isSome

/-- What the tables promise. -/
structure Store.Consistent (s : Store) : Prop where
  sameOwner : ∀ c ∈ s.credentials, ∀ id, c.sshKeyId = some id → s.HasKey c.orgId c.ownerId id
  /-- A server is bound to an identity of its organization. -/
  bound : ∀ server ∈ s.servers, ∀ id, server.credentialId = some id →
    ∃ c ∈ s.credentials, c.id = id ∧ c.orgId = server.orgId ∧ c.ownerId = none
  material : ∀ c ∈ s.credentials, c.HoldsMaterial

/-- Commits remember identities of their organization, if they are still there, and nobody has an
id that has not been given out. -/
structure Store.Remembers (s : Store) : Prop where
  ours : ∀ n, ∀ e ∈ (s.commits n).identities, ∀ c ∈ s.credentials, c.id = e.2 →
    c.orgId = (s.commits n).orgId ∧ c.ownerId = none
  issued : ∀ n, ∀ e ∈ (s.commits n).identities, e.2 ∈ s.issued
  credentials : ∀ c ∈ s.credentials, c.id ∈ s.issued

structure Store.Sound (s : Store) : Prop extends s.Consistent, s.Remembers

/-- An id that no commit remembers. -/
def Store.Unknown (s : Store) (id : Id) : Prop :=
  ∀ n, ∀ e ∈ (s.commits n).identities, e.2 ≠ id

/-! ## New keys -/

/-- Keys have been added, and nothing else is different. -/
structure AddsKeys (s t : Store) : Prop where
  keys : ∀ k ∈ s.sshKeys, k ∈ t.sshKeys
  credentials : t.credentials = s.credentials
  servers : t.servers = s.servers
  commits : t.commits = s.commits
  issued : t.issued = s.issued

variable {env : Surroundings} {s t : Store} {orgId : Id} {ownerId : Option Id} {id : Id}

theorem AddsKeys.refl (s : Store) : AddsKeys s s := ⟨fun _ h ↦ h, rfl, rfl, rfl, rfl⟩

theorem Store.HasKey.mono (h : s.HasKey orgId ownerId id) (hk : ∀ k ∈ s.sshKeys, k ∈ t.sshKeys) :
    t.HasKey orgId ownerId id := by
  obtain ⟨k, hmem, hrest⟩ := h
  exact ⟨k, hk k hmem, hrest⟩

theorem AddsKeys.sound (h : AddsKeys s t) (hs : s.Sound) : t.Sound where
  sameOwner := by
    rw [h.credentials]
    exact fun c hc id hid ↦ (hs.sameOwner c hc id hid).mono h.keys
  bound := by
    rw [h.credentials, h.servers]
    exact hs.bound
  material := by
    rw [h.credentials]
    exact hs.material
  ours := by
    rw [h.credentials, h.commits]
    exact hs.ours
  issued := by
    rw [h.commits, h.issued]
    exact hs.issued
  credentials := by
    rw [h.credentials, h.issued]
    exact hs.credentials

theorem insertKey_spec {row : SshKey} (h : s.insertKey row = some t) :
    AddsKeys s t ∧ row ∈ t.sshKeys := by
  unfold Store.insertKey at h
  split at h
  · cases h
  · obtain ⟨sshKeys, hinsert, rfl⟩ := Option.map_eq_some_iff.mp h
    obtain ⟨hfree, rfl⟩ := Keyed.insert?_eq_some.mp hinsert
    refine ⟨⟨fun k hk ↦ ?_, rfl, rfl, rfl, rfl⟩, ?_⟩
    · exact (Keyed.mem_insert hfree).mpr (.inl hk)
    · exact (Keyed.mem_insert hfree).mpr (.inr rfl)

/-- What a call that stores a key does: it adds one of a scope, or none. -/
def AddsOwnKey (s : Store) (orgId : Id) (ownerId : Option Id) (key : SshKey) (t : Store) : Prop :=
  AddsKeys s t ∧ key ∈ t.sshKeys ∧ key.orgId = orgId ∧ key.ownerId = ownerId

theorem AddsOwnKey.hasKey {key : SshKey} (h : AddsOwnKey s orgId ownerId key t) :
    t.HasKey orgId ownerId key.id :=
  ⟨key, h.2.1, rfl, h.2.2⟩

theorem createSshKeyRow_ensures (row : SshKey) :
    Ensures (AddsKeys s) (createSshKeyRow row) (AddsOwnKey s row.orgId row.ownerId) s := by
  unfold createSshKeyRow
  simp only [ensures_bind, ensures_get, ensures_orFail, ensures_set, ensures_pure]
  refine ⟨fun t ht ↦ ?_, fun _ ↦ .refl s⟩
  obtain ⟨hadds, hrow⟩ := insertKey_spec ht
  exact ⟨hadds, hrow, rfl, rfl⟩

theorem createFirst_ensures {rows : List SshKey}
    (h : ∀ row ∈ rows, row.orgId = orgId ∧ row.ownerId = ownerId) :
    Ensures (AddsKeys s) (createFirst rows) (AddsOwnKey s orgId ownerId) s := by
  induction rows with
  | nil => exact .refl s
  | cons row rows ih =>
    unfold createFirst
    rw [ensures_bind, ensures_get]
    split
    · exact ih fun row hrow ↦ h row (List.mem_cons_of_mem _ hrow)
    · rename_i t ht
      obtain ⟨hadds, hrow⟩ := insertKey_spec ht
      rw [ensures_bind, ensures_set, ensures_pure]
      exact ⟨hadds, hrow, h row List.mem_cons_self⟩

theorem generateKey_ensures (name : String) (description passphrase : Option String)
    (createdById : Option Id) (drawn : Drawn) :
    Ensures (AddsKeys s) (generateKey env orgId name description passphrase createdById ownerId drawn)
      (AddsOwnKey s orgId ownerId) s := by
  unfold generateKey
  simp only [ensures_bind, ensures_get, ensures_check, ensures_lift]
  refine ⟨fun _ ↦ ⟨fun _ _ ↦ ⟨fun generated _ ↦ ?_, fun _ _ ↦ .refl s⟩, fun _ _ ↦ .refl s⟩,
    fun _ ↦ .refl s⟩
  exact createSshKeyRow_ensures _

theorem importKey_ensures (data : KeyData) (createdById : Option Id) (drawn : Drawn) :
    Ensures (AddsKeys s) (importKey env orgId data createdById ownerId drawn)
      (AddsOwnKey s orgId ownerId) s := by
  unfold importKey
  simp only [ensures_bind, ensures_get, ensures_check, ensures_lift]
  refine ⟨fun _ ↦ ⟨fun _ _ ↦ ⟨fun parsed _ ↦ ⟨fun _ ↦ ⟨fun certificate _ ↦ ?_, ?_⟩, ?_⟩, ?_⟩, ?_⟩, ?_⟩
  · exact createSshKeyRow_ensures _
  all_goals
    intros
    exact .refl s

theorem resolveNewKey_ensures (name : String) (newKey : NewKey) (createdById : Option Id)
    (drawn : Drawn) :
    Ensures (AddsKeys s) (resolveNewKey env orgId name newKey createdById ownerId drawn)
      (AddsOwnKey s orgId ownerId) s := by
  unfold resolveNewKey
  simp only [ensures_bind, ensures_get, ensures_lift]
  refine ⟨fun parsed _ ↦ createFirst_ensures fun row hrow ↦ ?_, fun _ _ ↦ .refl s⟩
  obtain ⟨name, -, rfl⟩ := List.mem_map.mp hrow
  exact ⟨rfl, rfl⟩

/-- The key that an identity is to use is one of its scope. -/
def AddsKeyFor (s : Store) (orgId : Id) (ownerId : Option Id) (sshKeyId : Option Id) (t : Store) :
    Prop :=
  AddsKeys s t ∧ ∀ id, sshKeyId = some id → t.HasKey orgId ownerId id

theorem findKey_eq_some {k : SshKey} (h : s.findKey orgId id ownerId = some k) :
    k ∈ s.sshKeys ∧ k.id = id ∧ k.orgId = orgId ∧ k.ownerId = ownerId := by
  obtain ⟨hfind, hscope⟩ := Option.filter_eq_some_iff.mp h
  exact ⟨Keyed.mem_of_find hfind, Keyed.key_of_find hfind, of_decide_eq_true hscope⟩

theorem findCredential_eq_some {c : Credential} (h : s.findCredential orgId id ownerId = some c) :
    c ∈ s.credentials ∧ c.id = id ∧ c.orgId = orgId ∧ c.ownerId = ownerId := by
  obtain ⟨hfind, hscope⟩ := Option.filter_eq_some_iff.mp h
  exact ⟨Keyed.mem_of_find hfind, Keyed.key_of_find hfind, of_decide_eq_true hscope⟩

theorem keyFor_ensures (name : String) (sshKeyId : Option Id) (newKey : Option NewKey)
    (createdById : Option Id) (drawn : Drawn) :
    Ensures (AddsKeys s) (keyFor env orgId name sshKeyId newKey createdById ownerId drawn)
      (fun key t ↦ AddsKeyFor s orgId ownerId key t ∧
        key.isSome = (newKey.isSome || (truthy sshKeyId).isSome)) s := by
  unfold keyFor
  cases newKey with
  | some newKey =>
    dsimp only
    rw [ensures_bind]
    refine (resolveNewKey_ensures name newKey createdById drawn).mono (fun _ h ↦ h) fun key t h ↦ ?_
    rw [ensures_pure]
    refine ⟨⟨h.1, fun id hid ↦ ?_⟩, rfl⟩
    obtain rfl := Option.some.inj hid
    exact h.hasKey
  | none =>
    cases hid : truthy sshKeyId with
    | none => exact ⟨⟨.refl s, fun _ h ↦ by cases h⟩, rfl⟩
    | some id =>
      dsimp only
      simp only [ensures_bind, ensures_get, ensures_orFail, ensures_pure]
      refine ⟨fun k hk ↦ ⟨⟨.refl s, fun j hj ↦ ?_⟩, rfl⟩, fun _ ↦ .refl s⟩
      obtain ⟨hmem, -, hscope⟩ := findKey_eq_some hk
      exact ⟨k, hmem, Option.some.inj hj, hscope⟩

/-! ## New identities -/

theorem holdsMaterial_of_validate {c : Credential} {authType : String} {hasPassword hasKey : Bool}
    (h : validateAuthMaterial authType hasPassword hasKey = .ok ())
    (htype : c.authType = authType ∨ c.authType = "")
    (hpassword : hasPassword → c.passwordEncrypted.isSome) (hkey : hasKey → c.sshKeyId.isSome) :
    c.HoldsMaterial := by
  simp only [validateAuthMaterial, bind_eq_ok, require_eq_ok] at h
  obtain ⟨-, -, -, hp, -, hk, hkp⟩ := h
  have key : ∀ name : String, c.authType = name → name ≠ "" → authType = name := by
    rintro _ rfl hne
    exact (htype.resolve_right hne).symm
  constructor
  · intro h
    exact hpassword (hp (key _ h (by decide)))
  · intro h
    exact hkey (hk (key _ h (by decide)))
  · intro h
    obtain ⟨hk, hp⟩ := hkp (key _ h (by decide))
    exact ⟨hkey hk, hpassword hp⟩

/-- An identity that may be added. -/
structure Store.Takes (s : Store) (row : Credential) : Prop where
  key : ∀ id, row.sshKeyId = some id → s.HasKey row.orgId row.ownerId id
  material : row.HoldsMaterial
  unknown : s.Unknown row.id
  issued : row.id ∈ s.issued

theorem Store.Sound.insert {row : Credential} (h : s.Sound) (hrow : s.Takes row)
    (hfree : ∀ c ∈ s.credentials, c.id ≠ row.id) :
    Store.Sound { s with credentials := s.credentials.insert row hfree } where
  sameOwner c hc id hid := by
    rcases (Keyed.mem_insert hfree).mp hc with hc | rfl
    · exact h.sameOwner c hc id hid
    · exact hrow.key id hid
  bound server hserver id hid := by
    obtain ⟨c, hc, hrest⟩ := h.bound server hserver id hid
    exact ⟨c, (Keyed.mem_insert hfree).mpr (.inl hc), hrest⟩
  material c hc := by
    rcases (Keyed.mem_insert hfree).mp hc with hc | rfl
    · exact h.material c hc
    · exact hrow.material
  ours n e he c hc hid := by
    rcases (Keyed.mem_insert hfree).mp hc with hc | rfl
    · exact h.ours n e he c hc hid
    · exact absurd hid.symm (hrow.unknown n e he)
  issued := h.issued
  credentials c hc := by
    rcases (Keyed.mem_insert hfree).mp hc with hc | rfl
    · exact h.credentials c hc
    · exact hrow.issued

theorem createCredentialRow_ensures {row : Credential} (h : s.Sound) (hrow : s.Takes row) :
    Ensures Store.Sound (createCredentialRow row)
      (fun c t ↦ t.Sound ∧ c = row ∧ c ∈ t.credentials ∧ t.servers = s.servers ∧
        t.commits = s.commits) s := by
  unfold createCredentialRow
  rw [ensures_bind, ensures_get, ensures_bind, ensures_orFail]
  refine ⟨fun t ht ↦ ?_, fun _ ↦ h⟩
  rw [ensures_bind, ensures_set, ensures_pure]
  unfold Store.insertCredential at ht
  split at ht
  · cases ht
  · obtain ⟨credentials, hinsert, rfl⟩ := Option.map_eq_some_iff.mp ht
    obtain ⟨hfree, rfl⟩ := Keyed.insert?_eq_some.mp hinsert
    exact ⟨h.insert hrow hfree, rfl, (Keyed.mem_insert hfree).mpr (.inr rfl), rfl, rfl⟩

theorem createCredential_ensures (h : s.Sound) (data : CredentialData) (createdById : Option Id)
    {drawn : Drawn} (hunknown : s.Unknown drawn.credentialId)
    (hissued : drawn.credentialId ∈ s.issued) :
    Ensures Store.Sound (createCredential env orgId data createdById ownerId drawn)
      (fun c t ↦ t.Sound ∧ (c ∈ t.credentials ∧ c.orgId = orgId ∧ c.ownerId = ownerId) ∧
        t.servers = s.servers ∧ t.commits = s.commits) s := by
  unfold createCredential
  simp only [ensures_bind, ensures_get, ensures_check, ensures_lift]
  refine ⟨fun _ ↦ ⟨fun _ ↦ ⟨fun _ hvalid ↦ ⟨fun _ _ ↦ ?_, fun _ _ ↦ h⟩, fun _ _ ↦ h⟩, fun _ ↦ h⟩,
    fun _ ↦ h⟩
  refine (keyFor_ensures data.name data.sshKeyId data.newKey createdById drawn).mono
    (fun t ht ↦ ht.sound h) ?_
  rintro key t ⟨⟨hadds, hkey⟩, hsome⟩
  have hrow : t.Takes
      { id := drawn.credentialId, orgId, name := data.name, description := truthy data.description
        username := data.username, authType := data.authType
        passwordEncrypted := (truthy data.password).map env.encrypt
        sshKeyId := key, tags := data.tags, createdById := truthy createdById, ownerId } := by
    refine ⟨hkey, ?_, ?_, ?_⟩
    · refine holdsMaterial_of_validate hvalid (.inl rfl) (fun hp ↦ ?_) fun hk ↦ ?_
      · rwa [Option.isSome_map]
      · show key.isSome = true
        rw [hsome, Bool.or_comm]
        exact hk
    · show ∀ n, ∀ e ∈ (t.commits n).identities, e.2 ≠ drawn.credentialId
      rw [hadds.commits]
      exact hunknown
    · rwa [hadds.issued]
  refine (createCredentialRow_ensures (hadds.sound h) hrow).mono (fun _ h ↦ h) ?_
  rintro c u ⟨hu, rfl, hmem, hservers, hcommits⟩
  exact ⟨hu, ⟨hmem, rfl, rfl⟩, hservers.trans hadds.servers, hcommits.trans hadds.commits⟩

/-! ## Changed identities -/

theorem exists_of_written {f : Credential → Credential} {c' : Credential}
    (h : c' ∈ s.credentials.update (writeCredential id f) fun _ ↦ rfl) :
    ∃ c ∈ s.credentials, writeCredential id f c = c' :=
  (Keyed.mem_update _).mp h

/-- An identity is written anew, and keys with it; the organization gets it or it stays where it
is. -/
theorem Store.Sound.rewrite {sshKeys : Keyed fun k : SshKey ↦ k.id} {f : Credential → Credential}
    (h : s.Sound)
    (hkeys : ∀ c ∈ s.credentials, ∀ k, (writeCredential id f c).sshKeyId = some k →
      ∃ key ∈ sshKeys, key.id = k ∧ key.orgId = (writeCredential id f c).orgId ∧
        key.ownerId = (writeCredential id f c).ownerId)
    (hmaterial : ∀ c ∈ s.credentials, c.id = id → (f c).HoldsMaterial)
    (horg : ∀ c, (f c).orgId = c.orgId) (howner : ∀ c, (f c).ownerId = c.ownerId ∨ (f c).ownerId = none) :
    Store.Sound { s with
      sshKeys, credentials := s.credentials.update (writeCredential id f) fun _ ↦ rfl } := by
  have hwritten : ∀ c, (writeCredential id f c).orgId = c.orgId ∧
      (c.ownerId = none → (writeCredential id f c).ownerId = none) := by
    intro c
    unfold writeCredential
    by_cases hid : c.id = id
    · rw [if_pos hid]
      exact ⟨horg c, fun hc ↦ (howner c).elim (·.trans hc) fun h ↦ h⟩
    · rw [if_neg hid]
      exact ⟨rfl, fun hc ↦ hc⟩
  refine ⟨⟨?_, ?_, ?_⟩, ⟨?_, h.issued, ?_⟩⟩
  · intro c' hc' k hk
    obtain ⟨c, hc, rfl⟩ := exists_of_written hc'
    exact hkeys c hc k hk
  · intro server hserver k hk
    obtain ⟨c, hc, rfl, hcorg, hcowner⟩ := h.bound server hserver k hk
    have hmem : writeCredential id f c ∈ s.credentials.update (writeCredential id f) fun _ ↦ rfl :=
      (Keyed.mem_update _).mpr ⟨c, hc, rfl⟩
    exact ⟨_, hmem, rfl, (hwritten c).1.trans hcorg, (hwritten c).2 hcowner⟩
  · intro c' hc'
    obtain ⟨c, hc, rfl⟩ := exists_of_written hc'
    unfold writeCredential
    by_cases hid : c.id = id
    · rw [if_pos hid]
      exact ⟨(hmaterial c hc hid).password, (hmaterial c hc hid).key,
        (hmaterial c hc hid).keyPassword⟩
    · rw [if_neg hid]
      exact h.material c hc
  · intro n e he c' hc' hid
    obtain ⟨c, hc, rfl⟩ := exists_of_written hc'
    obtain ⟨hcorg, hcowner⟩ := h.ours n e he c hc hid
    exact ⟨(hwritten c).1.trans hcorg, (hwritten c).2 hcowner⟩
  · intro c' hc'
    obtain ⟨c, hc, rfl⟩ := exists_of_written hc'
    exact h.credentials c hc

theorem keyAfter_ensures (existing : Credential) (data : CredentialPatch) (actorId : Option Id)
    (drawn : Drawn) (h : ∀ id, existing.sshKeyId = some id → s.HasKey orgId ownerId id) :
    Ensures (AddsKeys s) (keyAfter env orgId existing data actorId ownerId drawn)
      (fun key t ↦ AddsKeyFor s orgId ownerId key t ∧ (data.hasKey existing → key.isSome)) s := by
  unfold keyAfter
  split
  · rename_i hgiven
    refine (keyFor_ensures _ data.sshKeyId.join data.newKey actorId drawn).mono (fun _ h ↦ h) ?_
    rintro key t ⟨hkey, hsome⟩
    refine ⟨hkey, fun hhas ↦ ?_⟩
    rw [hsome]
    cases hid : data.sshKeyId with
    | none =>
      rw [hid] at hgiven
      rw [hgiven.resolve_right (by decide), Bool.true_or]
    | some id =>
      unfold CredentialPatch.hasKey at hhas
      rw [hid] at hhas
      exact hhas
  · rename_i hgiven
    obtain ⟨hnew, hid⟩ := not_or.mp hgiven
    rw [ensures_pure]
    refine ⟨⟨.refl s, h⟩, fun hhas ↦ ?_⟩
    unfold CredentialPatch.hasKey at hhas
    rw [Option.not_isSome_iff_eq_none.mp hnew, Option.not_isSome_iff_eq_none.mp hid] at hhas
    cases hkey : existing.sshKeyId with
    | none =>
      rw [hkey] at hhas
      cases hhas
    | some id => rfl

theorem CredentialPatch.holdsMaterial {data : CredentialPatch} {existing : Credential}
    {key : Option Id}
    (h : validateAuthMaterial ((truthy data.authType).getD existing.authType)
      (data.willHavePassword existing.passwordEncrypted) (data.hasKey existing) = .ok ())
    (hkey : data.hasKey existing → key.isSome) : (data.apply env key existing).HoldsMaterial := by
  refine holdsMaterial_of_validate h ?_ (fun hp ↦ ?_) hkey
  · show data.authType.getD existing.authType = _ ∨ data.authType.getD existing.authType = ""
    cases hauth : data.authType with
    | none => exact .inl rfl
    | some authType =>
      by_cases hempty : authType = ""
      · exact .inr hempty
      · refine .inl ?_
        rw [truthy_eq_some.mpr ⟨rfl, hempty⟩]
  · show (data.newPassword env existing.passwordEncrypted).isSome
    unfold CredentialPatch.willHavePassword at hp
    unfold CredentialPatch.newPassword
    cases hclear : data.clearPassword with
    | true =>
      rw [hclear] at hp
      cases hp
    | false =>
      rw [hclear] at hp
      cases hpassword : truthy data.password with
      | some password => rfl
      | none =>
        rw [hpassword] at hp
        obtain ⟨password, hold⟩ := Option.isSome_iff_exists.mp hp
        rw [(truthy_eq_some.mp hold).1]
        rfl

theorem updateCredential_ensures (h : s.Sound) (data : CredentialPatch) (actorId : Option Id)
    (drawn : Drawn) :
    Ensures Store.Sound (updateCredential env orgId id data actorId ownerId drawn)
      (fun _ ↦ Store.Sound) s := by
  unfold updateCredential
  rw [ensures_bind, ensures_get, ensures_bind, ensures_orFail]
  refine ⟨fun existing hfind ↦ ?_, fun _ ↦ h⟩
  obtain ⟨hmem, rfl, rfl, rfl⟩ := findCredential_eq_some hfind
  rw [ensures_bind, ensures_lift]
  refine ⟨fun _ _ ↦ ?_, fun _ _ ↦ h⟩
  rw [ensures_bind, ensures_lift]
  refine ⟨fun _ hvalid ↦ ?_, fun _ _ ↦ h⟩
  rw [ensures_bind]
  refine (keyAfter_ensures existing data actorId drawn (h.sameOwner existing hmem)).mono
    (fun t ht ↦ ht.sound h) ?_
  rintro key t ⟨⟨hadds, hkey⟩, hhas⟩
  have ht : t.Sound := hadds.sound h
  rw [ensures_bind, ensures_get, ensures_bind, ensures_check]
  refine ⟨fun _ ↦ ?_, fun _ ↦ ht⟩
  rw [ensures_set]
  -- The row that is written is the one that was read.
  have hrow : ∀ c ∈ t.credentials, c.id = existing.id → c = existing := by
    intro c hc hid
    rw [hadds.credentials] at hc
    exact s.credentials.ext hc hmem hid
  refine ht.rewrite (fun c hc k hk ↦ ?_) (fun c hc hid ↦ ?_) (fun _ ↦ rfl) fun _ ↦ .inl rfl
  · unfold writeCredential at hk ⊢
    by_cases hid : c.id = existing.id
    · obtain rfl := hrow c hc hid
      rw [if_pos rfl] at hk ⊢
      exact hkey k hk
    · rw [if_neg hid] at hk ⊢
      exact ht.sameOwner c hc k hk
  · obtain rfl := hrow c hc hid
    exact CredentialPatch.holdsMaterial hvalid hhas

/-! ## Deletions -/

theorem mem_of_credentialCount {keyId : Id} (h : s.credentialCount keyId = 0) :
    ∀ c ∈ s.credentials, c.sshKeyId ≠ some keyId := by
  intro c hc hkey
  have hmem : c ∈ s.credentials.rows.filter fun c ↦ c.sshKeyId = some keyId :=
    List.mem_filter.mpr ⟨hc, decide_eq_true hkey⟩
  rw [List.eq_nil_of_length_eq_zero h] at hmem
  cases hmem

theorem Store.Sound.withKeys {sshKeys : Keyed fun k : SshKey ↦ k.id} {keyId : Id} (h : s.Sound)
    (hunused : ∀ c ∈ s.credentials, c.sshKeyId ≠ some keyId)
    (hkeys : ∀ k ∈ s.sshKeys, k.id ≠ keyId → k ∈ sshKeys) : Store.Sound { s with sshKeys } where
  sameOwner c hc id hid := by
    obtain ⟨k, hk, rfl, hrest⟩ := h.sameOwner c hc id hid
    have hne : k.id ≠ keyId := fun he ↦ hunused c hc (he ▸ hid)
    exact ⟨k, hkeys k hk hne, rfl, hrest⟩
  bound := h.bound
  material := h.material
  ours := h.ours
  issued := h.issued
  credentials := h.credentials

theorem deleteKey_ensures (h : s.Sound) :
    Ensures Store.Sound (deleteKey orgId id ownerId) (fun _ ↦ Store.Sound) s := by
  unfold deleteKey
  rw [ensures_bind, ensures_get, ensures_bind, ensures_orFail]
  refine ⟨fun existing _ ↦ ?_, fun _ ↦ h⟩
  rw [ensures_bind, ensures_check]
  refine ⟨fun hcount ↦ ?_, fun _ ↦ h⟩
  rw [ensures_set]
  refine h.withKeys (mem_of_credentialCount hcount) fun k hk hne ↦ ?_
  exact Keyed.mem_filter.mpr ⟨hk, decide_eq_true hne⟩

theorem exists_of_bound {p : Server → Bool} {f : Server → Server} {server : Server}
    (h : server ∈ s.servers.update (writeServer p f) fun _ ↦ rfl) :
    ∃ old ∈ s.servers, writeServer p f old = server :=
  (Keyed.mem_update _).mp h

theorem Store.Sound.dropCredential (h : s.Sound)
    (hunbound : ∀ server ∈ s.servers, server.credentialId ≠ some id) :
    Store.Sound { s with credentials := s.credentials.filter fun c ↦ c.id ≠ id } where
  sameOwner c hc := h.sameOwner c (Keyed.mem_filter.mp hc).1
  bound server hserver k hk := by
    obtain ⟨c, hc, rfl, hrest⟩ := h.bound server hserver k hk
    have hne : c.id ≠ id := fun he ↦ hunbound server hserver (he ▸ hk)
    exact ⟨c, Keyed.mem_filter.mpr ⟨hc, decide_eq_true hne⟩, rfl, hrest⟩
  material c hc := h.material c (Keyed.mem_filter.mp hc).1
  ours n e he c hc := h.ours n e he c (Keyed.mem_filter.mp hc).1
  issued := h.issued
  credentials c hc := h.credentials c (Keyed.mem_filter.mp hc).1

theorem Store.Sound.unbind {p : Server → Bool} {f : Server → Server} (h : s.Sound)
    (hf : ∀ server, (f server).credentialId = none) : (s.updateServers p f).Sound where
  sameOwner := h.sameOwner
  bound server hserver k hk := by
    obtain ⟨old, hold, rfl⟩ := exists_of_bound hserver
    unfold writeServer at hk ⊢
    by_cases hp : p old = true
    · rw [if_pos hp] at hk
      cases (hf old).symm.trans hk
    · rw [if_neg hp] at hk ⊢
      exact h.bound old hold k hk
  material := h.material
  ours := h.ours
  issued := h.issued
  credentials := h.credentials

theorem deleteCredential_ensures (h : s.Sound) (force : Bool) :
    Ensures Store.Sound (deleteCredential orgId id force ownerId) (fun _ ↦ Store.Sound) s := by
  unfold deleteCredential
  rw [ensures_bind, ensures_get, ensures_bind, ensures_orFail]
  refine ⟨fun existing _ ↦ ?_, fun _ ↦ h⟩
  rw [ensures_bind, ensures_check]
  refine ⟨fun _ ↦ ?_, fun _ ↦ h⟩
  rw [ensures_set]
  refine Store.Sound.dropCredential ((h.unbind fun _ ↦ rfl).unbind fun _ ↦ rfl) ?_
  intro server hserver hbound
  obtain ⟨old, -, rfl⟩ := exists_of_bound hserver
  unfold writeServer at hbound
  by_cases hid : old.credentialId = some id
  · rw [if_pos (decide_eq_true hid)] at hbound
    cases hbound
  · rw [if_neg (by simpa using hid)] at hbound
    exact hid hbound

/-! ## Moves -/

theorem mem_updateKey {f : SshKey → SshKey} {k : SshKey} (hk : k ∈ s.sshKeys) :
    writeKey id f k ∈ s.sshKeys.update (writeKey id f) fun _ ↦ rfl :=
  (Keyed.mem_update _).mpr ⟨k, hk, rfl⟩

theorem mem_updateKey_of_ne {f : SshKey → SshKey} {k : SshKey} (hk : k ∈ s.sshKeys)
    (hne : k.id ≠ id) : k ∈ s.sshKeys.update (writeKey id f) fun _ ↦ rfl := by
  have hmem : writeKey id f k ∈ s.sshKeys.update (writeKey id f) fun _ ↦ rfl := mem_updateKey hk
  unfold writeKey at hmem
  rwa [if_neg hne] at hmem

theorem moveKeyToOrg_ensures {owner : Id} (h : s.Sound) :
    Ensures Store.Sound (moveKeyToOrg orgId id owner) (fun _ ↦ Store.Sound) s := by
  unfold moveKeyToOrg
  rw [ensures_bind, ensures_get, ensures_bind, ensures_orFail]
  refine ⟨fun key _ ↦ ?_, fun _ ↦ h⟩
  rw [ensures_bind, ensures_check]
  refine ⟨fun hcount ↦ ?_, fun _ ↦ h⟩
  rw [ensures_bind, ensures_lift]
  refine ⟨fun _ _ ↦ ?_, fun _ _ ↦ h⟩
  rw [ensures_set]
  exact h.withKeys (mem_of_credentialCount hcount) fun k hk hne ↦ mem_updateKey_of_ne hk hne

theorem eq_of_length_le_one {α : Type} {l : List α} {a b : α} (h : l.length ≤ 1) (ha : a ∈ l)
    (hb : b ∈ l) : a = b := by
  match l, h with
  | [c], _ => rw [List.mem_singleton.mp ha, List.mem_singleton.mp hb]

theorem eq_of_credentialCount {keyId : Id} {c d : Credential} (h : s.credentialCount keyId ≤ 1)
    (hc : c ∈ s.credentials) (hd : d ∈ s.credentials) (hck : c.sshKeyId = some keyId)
    (hdk : d.sshKeyId = some keyId) : c = d :=
  eq_of_length_le_one h (List.mem_filter.mpr ⟨hc, decide_eq_true hck⟩)
    (List.mem_filter.mpr ⟨hd, decide_eq_true hdk⟩)

theorem Store.Sound.release {cred : Credential} (h : s.Sound) (hcred : cred ∈ s.credentials)
    (hcount : (cred.sshKeyId.bind s.sshKeys.find).all fun key ↦ s.credentialCount key.id ≤ 1) :
    ((s.releaseKey (cred.sshKeyId.bind s.sshKeys.find)).updateCredential cred.id
      fun c ↦ { c with ownerId := none }).Sound := by
  have hmaterial : ∀ c ∈ s.credentials, c.id = cred.id →
      Credential.HoldsMaterial { c with ownerId := none } := fun c hc _ ↦
    ⟨(h.material c hc).password, (h.material c hc).key, (h.material c hc).keyPassword⟩
  cases hid : cred.sshKeyId with
  | none =>
    -- There is no key to move.
    refine h.rewrite (fun c hc k hk ↦ ?_) hmaterial (fun _ ↦ rfl) fun _ ↦ .inr rfl
    unfold writeCredential at hk ⊢
    by_cases he : c.id = cred.id
    · rw [if_pos he] at hk
      obtain rfl := s.credentials.ext hc hcred he
      cases hid.symm.trans hk
    · rw [if_neg he] at hk ⊢
      exact h.sameOwner c hc k hk
  | some keyId =>
    obtain ⟨key, hkey, rfl, hkorg, hkowner⟩ := h.sameOwner cred hcred keyId hid
    have hfind : (some key.id).bind s.sshKeys.find = some key := Keyed.find_key hkey
    rw [hid, hfind, Option.all_some, decide_eq_true_eq] at hcount
    rw [hfind]
    refine h.rewrite (fun c hc k hk ↦ ?_) hmaterial (fun _ ↦ rfl) fun _ ↦ .inr rfl
    unfold writeCredential at hk ⊢
    by_cases he : c.id = cred.id
    · obtain rfl := s.credentials.ext hc hcred he
      rw [if_pos rfl] at hk ⊢
      obtain rfl := Option.some.inj (hid.symm.trans hk)
      refine ⟨_, mem_updateKey hkey, rfl, ?_⟩
      unfold writeKey
      rw [if_pos rfl]
      exact ⟨hkorg, rfl⟩
    · rw [if_neg he] at hk ⊢
      obtain ⟨other, hother, rfl, hrest⟩ := h.sameOwner c hc k hk
      have hne : other.id ≠ key.id := fun heq ↦
        he (congrArg Credential.id (eq_of_credentialCount hcount hc hcred (heq ▸ hk) hid))
      exact ⟨other, mem_updateKey_of_ne hother hne, rfl, hrest⟩

theorem moveCredentialToOrg_ensures {owner : Id} (h : s.Sound) :
    Ensures Store.Sound (moveCredentialToOrg orgId id owner) (fun _ ↦ Store.Sound) s := by
  unfold moveCredentialToOrg
  rw [ensures_bind, ensures_get, ensures_bind, ensures_orFail]
  refine ⟨fun cred hfind ↦ ?_, fun _ ↦ h⟩
  obtain ⟨hcred, rfl, -⟩ := findCredential_eq_some hfind
  rw [ensures_bind, ensures_check]
  refine ⟨fun hcount ↦ ?_, fun _ ↦ h⟩
  rw [ensures_bind, ensures_lift]
  refine ⟨fun _ _ ↦ ?_, fun _ _ ↦ h⟩
  rw [ensures_bind, ensures_lift]
  refine ⟨fun _ _ ↦ ?_, fun _ _ ↦ h⟩
  rw [ensures_set]
  exact h.release hcred hcount

/-! ## Imports -/

/-- An identity, if it is there, is the organization's, and its id has been given out. -/
structure Store.Ours (s : Store) (orgId id : Id) : Prop where
  org : ∀ c ∈ s.credentials, c.id = id → c.orgId = orgId ∧ c.ownerId = none
  issued : id ∈ s.issued

theorem Store.Sound.oursOfMem {c : Credential} (h : s.Sound) (hc : c ∈ s.credentials)
    (horg : c.orgId = orgId) (howner : c.ownerId = none) : s.Ours orgId c.id where
  org d hd hid := by
    obtain rfl := s.credentials.ext hd hc hid
    exact ⟨horg, howner⟩
  issued := h.credentials c hc

/-- What a commit does before it binds a server: the tables stay sound, the servers and what the
commits remember stay as they are. -/
structure Store.Prepares (s t : Store) : Prop where
  sound : t.Sound
  servers : t.servers = s.servers
  commits : t.commits = s.commits

theorem importedKey_ensures (commit : Commit) (name : String) (secrets : Secrets) (drawn : Drawn) :
    Ensures (AddsKeys s) (importedKey env commit name secrets drawn)
      (AddsKeyFor s commit.orgId none) s := by
  unfold importedKey
  split
  · exact ⟨.refl s, fun _ h ↦ by cases h⟩
  · rw [ensures_bind]
    refine (importKey_ensures _ commit.actorId drawn).mono (fun _ h ↦ h) fun key t h ↦ ?_
    refine ⟨h.1, fun id hid ↦ ?_⟩
    obtain rfl := Option.some.inj hid
    exact h.hasKey

theorem importedCredential_ensures (h : s.Sound) (commit : Commit) (name username : String)
    (secrets : Secrets) {drawn : Drawn} (hunknown : s.Unknown drawn.credentialId)
    (hissued : drawn.credentialId ∈ s.issued) :
    Ensures Store.Sound (importedCredential env commit name username secrets drawn)
      (fun id t ↦ s.Prepares t ∧ t.Ours commit.orgId id) s := by
  unfold importedCredential
  rw [ensures_bind]
  refine (importedKey_ensures commit name secrets drawn).mono (fun t ht ↦ ht.sound h) ?_
  rintro key t ⟨hadds, -⟩
  have ht : t.Unknown drawn.credentialId := by
    unfold Store.Unknown
    rw [hadds.commits]
    exact hunknown
  rw [ensures_bind]
  refine (createCredential_ensures (hadds.sound h) _ commit.actorId ht
    (hadds.issued ▸ hissued)).mono (fun _ h ↦ h) ?_
  rintro c u ⟨hu, ⟨hmem, horg, howner⟩, hservers, hcommits⟩
  rw [ensures_pure]
  exact ⟨⟨hu, hservers.trans hadds.servers, hcommits.trans hadds.commits⟩,
    hu.oursOfMem hmem horg howner⟩

theorem reusable_ours {name username : String} (h : s.Sound)
    (hid : reusable env s orgId name username = .ok (some id)) : s.Ours orgId id := by
  unfold reusable at hid
  split at hid
  · cases hid
  · rename_i existing hfind
    split at hid
    · obtain rfl := Option.some.inj (Except.ok.inj hid)
      have hscope := List.find?_some hfind
      obtain ⟨horg, howner, -⟩ := of_decide_eq_true hscope
      exact h.oursOfMem (List.mem_of_find?_eq_some hfind) horg howner
    · cases hid

theorem identityFor_ensures (h : s.Sound) {n : Nat} (staged : Staged) (name username : String)
    {drawn : Drawn} (hunknown : s.Unknown drawn.credentialId)
    (hissued : drawn.credentialId ∈ s.issued) :
    Ensures Store.Sound (identityFor env (s.commits n) staged name username drawn)
      (fun id? t ↦ s.Prepares t ∧ ∀ id, id? = some id → t.Ours (s.commits n).orgId id) s := by
  have hstay : s.Prepares s := ⟨h, rfl, rfl⟩
  unfold identityFor
  split
  · rename_i id hcached
    refine ⟨hstay, fun j hj ↦ ?_⟩
    obtain rfl := Option.some.inj hj
    have hmem := Dict.mem_of_get (truthy_eq_some.mp hcached).1
    exact ⟨h.ours n _ hmem, h.issued n _ hmem⟩
  · rw [ensures_bind, ensures_get, ensures_bind, ensures_lift]
    refine ⟨fun existing hexisting ↦ ?_, fun _ _ ↦ h⟩
    split
    · refine ⟨hstay, fun j hj ↦ ?_⟩
      obtain rfl := Option.some.inj hj
      exact reusable_ours h hexisting
    · rw [ensures_bind, ensures_lift]
      refine ⟨fun secrets _ ↦ ?_, fun _ _ ↦ h⟩
      split
      · exact ⟨hstay, fun _ hj ↦ by cases hj⟩
      · rw [map_eq_pure_bind, ensures_bind]
        refine (importedCredential_ensures h (s.commits n) name username secrets hunknown
          hissued).mono (fun _ h ↦ h) fun id t ht ↦ ?_
        refine ⟨ht.1, fun j hj ↦ ?_⟩
        obtain rfl := Option.some.inj hj
        exact ht.2

theorem Store.Sound.remember {n : Nat} {key : String} (h : s.Sound)
    (hours : s.Ours (s.commits n).orgId id) : (s.remember n key id).Sound := by
  have horg : ∀ m, ((s.remember n key id).commits m).orgId = (s.commits m).orgId := by
    intro m
    unfold Store.remember
    by_cases hm : m = n
    · subst hm
      dsimp only
      rw [if_pos rfl]
    · dsimp only
      rw [if_neg hm]
  have hmem : ∀ m, ∀ e ∈ ((s.remember n key id).commits m).identities,
      e ∈ (s.commits m).identities ∨ m = n ∧ e.2 = id := by
    intro m e he
    unfold Store.remember at he
    dsimp only at he
    by_cases hm : m = n
    · subst hm
      rw [if_pos rfl] at he
      rcases Dict.mem_of_mem_set he with he | rfl
      · exact .inl he
      · exact .inr ⟨rfl, rfl⟩
    · rw [if_neg hm] at he
      exact .inl he
  refine ⟨⟨h.sameOwner, h.bound, h.material⟩, ⟨?_, ?_, h.credentials⟩⟩
  · intro m e he c hc hid
    rw [horg m]
    rcases hmem m e he with he | ⟨rfl, rfl⟩
    · exact h.ours m e he c hc hid
    · exact hours.org c hc hid
  · intro m e he
    rcases hmem m e he with he | ⟨rfl, rfl⟩
    · exact h.issued m e he
    · exact hours.issued

theorem bindServer_ensures {serverId : Id} (h : s.Sound) (hours : s.Ours orgId id)
    (hserver : ∀ server ∈ s.servers, server.id = serverId → server.orgId = orgId) :
    Ensures Store.Sound (bindServer serverId id) (fun _ ↦ Store.Sound) s := by
  unfold bindServer
  rw [ensures_bind, ensures_get, ensures_bind, ensures_check]
  refine ⟨fun ⟨_, hthere⟩ ↦ ?_, fun _ ↦ h⟩
  rw [ensures_set]
  obtain ⟨c, hc⟩ := Option.isSome_iff_exists.mp hthere
  have hmem := Keyed.mem_of_find hc
  obtain ⟨horg, howner⟩ := hours.org c hmem (Keyed.key_of_find hc)
  refine ⟨⟨h.sameOwner, ?_, h.material⟩, ⟨h.ours, h.issued, h.credentials⟩⟩
  intro server' hserver' k hk
  obtain ⟨server, hmem', rfl⟩ := exists_of_bound hserver'
  unfold writeServer at hk ⊢
  by_cases hid : server.id = serverId
  · rw [if_pos (decide_eq_true hid)] at hk ⊢
    obtain rfl := Option.some.inj hk
    exact ⟨c, hmem, Keyed.key_of_find hc, horg.trans (hserver server hmem' hid).symm, howner⟩
  · rw [if_neg (by simpa using hid)] at hk ⊢
    exact h.bound server hmem' k hk

theorem materializeIdentity_ensures (h : s.Sound) {n : Nat} (hostname : String) {serverId : Id}
    {drawn : Drawn} (hunknown : s.Unknown drawn.credentialId)
    (hissued : drawn.credentialId ∈ s.issued)
    (hserver : ∀ server ∈ s.servers, server.id = serverId → server.orgId = (s.commits n).orgId) :
    Ensures Store.Sound (materializeIdentity env n hostname serverId drawn) (fun _ ↦ Store.Sound)
      s := by
  unfold materializeIdentity
  rw [ensures_bind, ensures_get]
  dsimp only
  split
  · exact h
  · rename_i staged _
    rw [ensures_bind]
    refine (identityFor_ensures h staged _ _ hunknown hissued).mono (fun _ h ↦ h) ?_
    rintro id? t ⟨ht, hours⟩
    split
    · exact ht.sound
    · rename_i id
      have hid := hours id rfl
      rw [ensures_bind, ensures_modify]
      have hours' : ∀ key, (t.remember n key id).Ours (s.commits n).orgId id := fun _ ↦
        ⟨hid.org, hid.issued⟩
      refine bindServer_ensures ?_ (hours' _) ?_
      · refine ht.sound.remember ?_
        rw [ht.commits]
        exact hid
      · show ∀ server ∈ t.servers, _
        rw [ht.servers]
        exact hserver

/-! ## Runs -/

theorem Store.Sound.issue (h : s.Sound) (ids : List Id) :
    Store.Sound { s with issued := ids ++ s.issued } :=
  ⟨⟨h.sameOwner, h.bound, h.material⟩, ⟨h.ours,
    fun n e he ↦ List.mem_append_right ids (h.issued n e he),
    fun c hc ↦ List.mem_append_right ids (h.credentials c hc)⟩⟩

theorem Call.run_ensures {call : Call} (h : s.Sound) (hunknown : ∀ id ∈ call.draws, s.Unknown id)
    (hissued : ∀ id ∈ call.draws, id ∈ s.issued)
    (hserver : ∀ n hostname serverId drawn,
      call = .materializeIdentity n hostname serverId drawn →
      ∀ server ∈ s.servers, server.id = serverId → server.orgId = (s.commits n).orgId) :
    Ensures Store.Sound (call.run env) (fun _ ↦ Store.Sound) s := by
  cases call with
  | generateKey orgId name description passphrase createdById ownerId drawn =>
    exact ensures_forget.mpr ((generateKey_ensures name description passphrase createdById
      drawn).mono (fun _ ht ↦ ht.sound h) fun _ _ ht ↦ ht.1.sound h)
  | importKey orgId data createdById ownerId drawn =>
    exact ensures_forget.mpr ((importKey_ensures data createdById drawn).mono
      (fun _ ht ↦ ht.sound h) fun _ _ ht ↦ ht.1.sound h)
  | deleteKey orgId id ownerId => exact deleteKey_ensures h
  | createCredential orgId data createdById ownerId drawn =>
    have hmem : drawn.credentialId ∈ [drawn.keyId, drawn.credentialId] := by simp
    exact ensures_forget.mpr ((createCredential_ensures h data createdById
      (hunknown _ hmem) (hissued _ hmem)).mono (fun _ ht ↦ ht) fun _ _ ht ↦ ht.1)
  | updateCredential orgId id data actorId ownerId drawn =>
    exact updateCredential_ensures h data actorId drawn
  | deleteCredential orgId id force ownerId => exact deleteCredential_ensures h force
  | moveKeyToOrg orgId id ownerId => exact moveKeyToOrg_ensures h
  | moveCredentialToOrg orgId id ownerId => exact moveCredentialToOrg_ensures h
  | materializeIdentity n hostname serverId drawn =>
    have hmem : drawn.credentialId ∈ [drawn.keyId, drawn.credentialId] := by simp
    exact materializeIdentity_ensures h hostname (hunknown _ hmem) (hissued _ hmem)
      (hserver n hostname serverId drawn rfl)

theorem step_sound {call : Call} (h : s.Sound) (hstep : step env s call = some t) : t.Sound := by
  unfold step at hstep
  split at hstep
  · rename_i hpossible
    obtain rfl := Option.some.inj hstep
    unfold Call.possible at hpossible
    obtain ⟨hfresh, hserver⟩ := Bool.and_eq_true_iff.mp hpossible
    refine (Call.run_ensures (h.issue call.draws) ?_ ?_ ?_).after
    · intro id hid n e he heq
      have hnew : id ∉ s.issued := of_decide_eq_true (List.all_eq_true.mp hfresh id hid)
      exact hnew (heq ▸ h.issued n e he)
    · exact fun id hid ↦ List.mem_append_left _ hid
    · rintro n hostname serverId drawn rfl server hmem rfl
      dsimp only at hserver
      rw [Keyed.find_key hmem, Option.any_some, decide_eq_true_eq] at hserver
      exact hserver
  · cases hstep

/-- The tables before any of the calls: consistent, no commit under way has made an identity, and
the ids of the identities have been given out. -/
structure Store.Starts (s : Store) : Prop extends s.Consistent where
  noIdentities : ∀ n, (s.commits n).identities = []
  credentials : ∀ c ∈ s.credentials, c.id ∈ s.issued

theorem Store.Starts.sound (h : s.Starts) : s.Sound where
  toConsistent := h.toConsistent
  ours n e he := by
    rw [h.noIdentities n] at he
    cases he
  issued n e he := by
    rw [h.noIdentities n] at he
    cases he
  credentials := h.credentials

/-- **Whatever the calls are and however they end, identities and their keys have one owner,
servers are bound to the organization's identities, and identities have their secrets.** -/
theorem ownership_consistent {calls : List Call} (h₀ : s.Starts)
    (hrun : Run (step env) free s calls t) : t.Consistent :=
  (hrun.invariant h₀.sound fun _ _ _ hs hstep _ ↦ step_sound hs hstep).toConsistent

/-! A host is imported with its key and its password, the person in charge makes an identity of
her own with a new key, switches it to a password as well and moves it to the organization. -/

private def plainEnv : Surroundings where
  toLowerCase := fun text ↦ text
  encrypt := fun text ↦ text
  decrypt := .ok
  normalizePrivateKey := fun pem _ ↦ .ok
    { keyType := "ed25519", publicKey := "pub " ++ pem, privateKey := pem, fingerprint := pem }
  publicKeyMatches := fun parsed publicKey ↦ parsed.publicKey = publicKey
  parseCertificate := .ok

private def draw (n : String) : Drawn where
  keyId := "key-" ++ n
  credentialId := "cred-" ++ n
  generated := .ok { keyType := "ed25519", publicKey := n, privateKey := n, fingerprint := n }
  suffix := fun _ ↦ "0a1b2c"

private def emptyVault : Store where
  servers := ⟨[{ id := "web", orgId := "org" }], by decide⟩
  staged := [{ jobId := "job", serverRef := "web.example", sshUser := "deploy"
               authMethod := "key+password", storeAsIdentity := true
               secretEncrypted := some "pem", passwordEncrypted := some "pw" }]
  commits := fun _ ↦ { orgId := "org", jobId := "job" }

private def busyDay : List Call :=
  [.materializeIdentity 0 "web.example" "web" (draw "1"),
    .createCredential "org" { name := "mine", username := "ann", authType := "key"
                              newKey := some { generate := true } } none (some "ann") (draw "2"),
    .updateCredential "org" "cred-2" { authType := some "key_password", password := some "s3cret" }
      none (some "ann") (draw "3"),
    .deleteKey "org" "key-2" (some "ann"),
    .moveCredentialToOrg "org" "cred-2" "ann"]

private theorem emptyVault_starts : emptyVault.Starts where
  sameOwner c hc := (Keyed.notMem_empty hc).elim
  bound server hserver id hid := by
    obtain rfl := List.mem_singleton.mp hserver
    cases hid
  material c hc := (Keyed.notMem_empty hc).elim
  noIdentities _ := rfl
  credentials c hc := (Keyed.notMem_empty hc).elim

/-- The identity of each server; the owner, the key and the kind of login of each identity; and each
key with its owner. -/
private def whose (t : Store) : List (List (Option String)) :=
  t.servers.rows.map (fun server ↦ [some server.id, server.credentialId]) ++
    t.credentials.rows.map (fun c ↦ [c.ownerId, c.sshKeyId, some c.authType]) ++
    t.sshKeys.rows.map fun k ↦ [some k.id, k.ownerId]

theorem ownership_consistent_in_use :
    ∃ t, Run (step plainEnv) free emptyVault busyDay t ∧ t.Consistent ∧
      whose t = [[some "web", some "cred-1"],
        [none, some "key-1", some "key_password"], [none, some "key-2", some "key_password"],
        [some "key-1", none], [some "key-2", none]] := by
  have hview : (exec (step plainEnv) emptyVault busyDay).map whose =
      some [[some "web", some "cred-1"],
        [none, some "key-1", some "key_password"], [none, some "key-2", some "key_password"],
        [some "key-1", none], [some "key-2", none]] := by decide +kernel
  obtain ⟨t, hrun, hrows⟩ := exists_run_free hview
  exact ⟨t, hrun, ownership_consistent emptyVault_starts hrun, hrows⟩

end Shellius.Keystore
