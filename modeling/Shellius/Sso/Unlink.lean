import Shellius.Lib.Pool
import Shellius.Sso.Accounts

/-!
# Unlinking identities

`ssoService.deleteUserIdentity`, which users and administrators unlink an identity with, and
`ssoConfigService.deleteProvider`, which unlinks all identities of a provider.  Both refuse to
take away the last way a person has to sign in: they read whether there is a password, count
the identities that would remain, and delete.

Each of these is a round trip of its own.  What was counted may be gone when the identity is
deleted, and the deletion does not look.
-/

namespace Shellius.Sso.Unlink

open Lib

/-! ## The program -/

/-- The users, their identities and the providers. -/
structure Store where
  users : Keyed (fun u : Account ↦ u.id) := .empty
  identities : Keyed UserIdentity.id := .empty
  ssoConfigs : Keyed SsoConfig.id := .empty

/-- The operations called.  `orgId` is that of the caller, if one is asked for. -/
inductive Operation
  | deleteUserIdentity (userId identityId : Id) (orgId : Option Id)
  | deleteProvider (orgId id : Id) (force : Bool)

inductive Call
  | /-- `deleteUserIdentity` finds the identity. -/
    findIdentity (userId identityId : Id) (orgId : Option Id)
  | /-- It reads the password of the user, and whether the organization lets them use it. -/
    readUser (userId identityId : Id)
  | countOthers (userId identityId : Id)
  | /-- It deletes the identity; `counted` if it relies on the count. -/
    deleteIdentity (userId identityId : Id) (counted : Bool)
  | /-- `deleteProvider` finds the provider. -/
    findProvider (orgId id : Id) (force : Bool)
  | findUsers (id : Id)
  | /-- It reads the password of the next user.  It relies on the count for `counted`, and has
    found a password, or no user, for the others it is done with. -/
    readNext (id userId : Id) (users counted : List Id)
  | countElsewhere (id userId : Id) (users counted : List Id)
  | deleteProvider (id : Id) (counted : List Id)

/-- What a step gets from outside: the answer of `passwordSignInBlocked`. -/
structure Outside where
  passwordSignInBlocked : Bool := false

def start : Operation → Call
  | .deleteUserIdentity userId identityId orgId => .findIdentity userId identityId orgId
  | .deleteProvider orgId id force => .findProvider orgId id force

namespace Store

variable (s : Store)

def HasPassword (userId : Id) : Prop :=
  ∃ u ∈ s.users.find userId, (truthy u.passwordHash).isSome

instance (userId : Id) : Decidable (s.HasPassword userId) :=
  inferInstanceAs (Decidable (∃ u ∈ s.users.find userId, _))

def others (userId identityId : Id) : List UserIdentity :=
  s.identities.rows.filter fun i ↦ i.userId = userId ∧ i.id ≠ identityId

def elsewhere (userId ssoConfigId : Id) : List UserIdentity :=
  s.identities.rows.filter fun i ↦ i.userId = userId ∧ i.ssoConfigId ≠ ssoConfigId

/-- The identities without one; the others of its user stay. -/
def deleteIdentity (identityId : Id) : Store :=
  { s with identities := s.identities.filter fun i ↦ i.id ≠ identityId }

/-- The providers without one, and its identities with it. -/
def deleteProvider (id : Id) : Store :=
  { s with
    identities := s.identities.filter fun i ↦ i.ssoConfigId ≠ id
    ssoConfigs := s.ssoConfigs.filter fun c ↦ c.id ≠ id }

end Store

/-- The loop of `deleteProvider` goes on. -/
def nextUser (id : Id) (users counted : List Id) : Call :=
  match users with
  | [] => .deleteProvider id counted
  | userId :: users => .readNext id userId users counted

def effect (s : Store) : Call → Store
  | .deleteIdentity _ identityId _ => s.deleteIdentity identityId
  | .deleteProvider id _ =>
    -- the deletion of a row that is gone throws
    if (s.ssoConfigs.find id).isSome then s.deleteProvider id else s
  | _ => s

def next (s : Store) (out : Outside) : Call → Option Call
  | .findIdentity userId identityId orgId =>
    if ∃ i ∈ s.identities.find identityId, i.userId = userId ∧ ∀ o ∈ orgId, i.orgId = o then
      some (.readUser userId identityId)
    else none
  | .readUser userId identityId =>
    if s.HasPassword userId ∧ out.passwordSignInBlocked = false then
      some (.deleteIdentity userId identityId false)
    else some (.countOthers userId identityId)
  | .countOthers userId identityId =>
    if s.others userId identityId = [] then none
    else some (.deleteIdentity userId identityId true)
  | .findProvider orgId id force =>
    if ∃ c ∈ s.ssoConfigs.find id, c.orgId = orgId then
      if force then some (.deleteProvider id []) else some (.findUsers id)
    else none
  | .findUsers id =>
    some (nextUser id
      ((s.identities.rows.filter fun i ↦ i.ssoConfigId = id).map UserIdentity.userId).eraseDups [])
  | .readNext id userId users counted =>
    if (s.users.find userId).isSome ∧ ¬ s.HasPassword userId then
      some (.countElsewhere id userId users counted)
    else some (nextUser id users counted)
  | .countElsewhere id userId users counted =>
    if s.elsewhere userId id = [] then none
    else some (nextUser id users (userId :: counted))
  | .deleteIdentity .. | .deleteProvider .. => none

def program : Program Store Operation Call Outside Empty where
  start
  act _ s k out := some (effect s k, next s out k)
  env _ d := d.elim

/-- What a deletion relies on is still there: one of the identities that were counted, if the
user has no password. -/
def timely (s : Store) : Call → Bool
  | .deleteIdentity userId identityId counted =>
    counted → s.HasPassword userId ∨ s.others userId identityId ≠ []
  | .deleteProvider id counted => counted.all fun userId ↦ s.elsewhere userId id ≠ []
  | _ => true

def forced : Call → Bool
  | .findProvider _ _ force => force
  | _ => false

/-- The step is not an overtaken deletion, nor one of a deletion by force. -/
def undisturbed (p : Pool Store Call) : Event Operation Outside Empty → Bool
  | .act i _ => (p.calls i).all fun k ↦ timely p.store k && !forced k
  | _ => true

/-- Runs in which no deletion is overtaken or forced. -/
def Undisturbed (p : Pool Store Call) (e : Event Operation Outside Empty) (_ : Pool Store Call) :
    Prop := undisturbed p e = true

/-! ## Ways in -/

def WayIn (s : Store) (userId : Id) : Prop :=
  s.HasPassword userId ∨ ∃ i ∈ s.identities, i.userId = userId

instance (s : Store) (userId : Id) : Decidable (WayIn s userId) :=
  inferInstanceAs (Decidable (_ ∨ ∃ i ∈ s.identities.rows, i.userId = userId))

/-- The users with identities of a provider are among some, or have a password, or are gone. -/
def Covered (s : Store) (id : Id) (users : List Id) : Prop :=
  ∀ i ∈ s.identities, i.ssoConfigId = id →
    i.userId ∈ users ∨ s.HasPassword i.userId ∨ s.users.find i.userId = none

def Owns (s : Store) (userId identityId : Id) : Prop :=
  ∀ i ∈ s.identities, i.id = identityId → i.userId = userId

def Assert (s : Store) (_ : Nat) : Call → Prop
  | .readUser userId identityId | .countOthers userId identityId => Owns s userId identityId
  | .deleteIdentity userId identityId counted =>
    Owns s userId identityId ∧ (counted = false → s.HasPassword userId)
  | .readNext id userId users counted | .countElsewhere id userId users counted =>
    Covered s id (userId :: users ++ counted)
  | .deleteProvider id counted => Covered s id counted
  | .findIdentity .. | .findProvider .. | .findUsers _ => True

/-! ## What a step does -/

section

variable {s s' : Store} {k k' : Call} {out : Outside} {userId identityId id : Id}
  {users counted : List Id}

theorem users_effect (s : Store) (k : Call) : (effect s k).users = s.users := by
  cases k with
  | deleteProvider id counted =>
    simp only [effect]
    split <;> rfl
  | _ => rfl

theorem identities_effect {i : UserIdentity} (h : i ∈ (effect s k).identities) :
    i ∈ s.identities := by
  cases k with
  | deleteIdentity userId identityId counted => exact (Keyed.mem_filter.mp h).1
  | deleteProvider id counted =>
    simp only [effect] at h
    split at h
    · exact (Keyed.mem_filter.mp h).1
    · exact h
  | _ => exact h

theorem hasPassword_congr (h : s'.users = s.users) :
    s'.HasPassword userId ↔ s.HasPassword userId := by
  unfold Store.HasPassword
  rw [h]

theorem Covered.mono (h : Covered s id users) (husers : s'.users = s.users)
    (hids : ∀ i ∈ s'.identities, i ∈ s.identities) : Covered s' id users := by
  intro i hi hcfg
  rw [hasPassword_congr husers, husers]
  exact h i (hids i hi) hcfg

theorem Assert.mono {i : Nat} (h : Assert s i k) (husers : s'.users = s.users)
    (hids : ∀ i ∈ s'.identities, i ∈ s.identities) : Assert s' i k := by
  cases k with
  | readUser | countOthers => exact fun j hj ↦ h j (hids j hj)
  | deleteIdentity =>
    exact ⟨fun j hj ↦ h.1 j (hids j hj), fun hc ↦ (hasPassword_congr husers).mpr (h.2 hc)⟩
  | readNext | countElsewhere | deleteProvider => exact Covered.mono h husers hids
  | findIdentity | findProvider | findUsers => trivial

theorem assert_nextUser {i : Nat} (h : Covered s id (users ++ counted)) :
    Assert s i (nextUser id users counted) := by
  cases users with
  | nil => exact h
  | cons userId users => exact h

theorem mem_others {i : UserIdentity} :
    i ∈ s.others userId identityId ↔ i ∈ s.identities ∧ i.userId = userId ∧ i.id ≠ identityId := by
  simp [Store.others, Keyed.mem_def]

theorem mem_elsewhere {i : UserIdentity} :
    i ∈ s.elsewhere userId id ↔ i ∈ s.identities ∧ i.userId = userId ∧ i.ssoConfigId ≠ id := by
  simp [Store.elsewhere, Keyed.mem_def]

/-- A call knows what it has to, after a step that leaves the store. -/
theorem assert_next {i : Nat} (h : Assert s i k) (hforced : forced k = false)
    (hnext : next s out k = some k') : Assert s i k' := by
  cases k with
  | findIdentity userId identityId orgId =>
    obtain ⟨⟨j, hj, huser, -⟩, hnext⟩ := Option.ite_none_right_eq_some.mp hnext
    obtain rfl := Option.some.inj hnext
    obtain ⟨hmem, hid⟩ := Keyed.find_eq_some.mp hj
    intro l hl hlid
    rw [Keyed.ext hl hmem (hlid.trans hid.symm)]
    exact huser
  | readUser userId identityId =>
    simp only [next] at hnext
    split at hnext
    · rename_i hpassword
      obtain rfl := Option.some.inj hnext
      exact ⟨h, fun _ ↦ hpassword.1⟩
    · obtain rfl := Option.some.inj hnext
      exact h
  | countOthers userId identityId =>
    obtain ⟨-, hnext⟩ := Option.ite_none_left_eq_some.mp hnext
    obtain rfl := Option.some.inj hnext
    refine ⟨h, ?_⟩
    intro hc
    cases hc
  | findProvider orgId id force =>
    obtain rfl : force = false := hforced
    obtain ⟨-, hnext⟩ := Option.ite_none_right_eq_some.mp hnext
    obtain rfl := Option.some.inj hnext
    trivial
  | findUsers id =>
    obtain rfl := Option.some.inj hnext
    refine assert_nextUser fun j hj hcfg ↦ .inl ?_
    rw [List.append_nil, List.mem_eraseDups]
    exact List.mem_map.mpr ⟨j, List.mem_filter.mpr ⟨hj, decide_eq_true hcfg⟩, rfl⟩
  | readNext id userId users counted =>
    simp only [next] at hnext
    split at hnext
    · obtain rfl := Option.some.inj hnext
      exact h
    · rename_i hskip
      obtain rfl := Option.some.inj hnext
      refine assert_nextUser fun j hj hcfg ↦ ?_
      obtain hmem | hsettled := h j hj hcfg
      · obtain heq | hmem := List.mem_cons.mp hmem
        · right
          rw [heq]
          by_contra hno
          obtain ⟨hpassword, huser⟩ := not_or.mp hno
          exact hskip ⟨Option.isSome_iff_ne_none.mpr huser, hpassword⟩
        · exact .inl hmem
      · exact .inr hsettled
  | countElsewhere id userId users counted =>
    obtain ⟨-, hnext⟩ := Option.ite_none_left_eq_some.mp hnext
    obtain rfl := Option.some.inj hnext
    refine assert_nextUser fun j hj hcfg ↦ (h j hj hcfg).imp_left fun hmem ↦ ?_
    simp only [List.mem_cons, List.mem_append, List.cons_append] at hmem ⊢
    tauto
  | deleteIdentity | deleteProvider => cases hnext

theorem wayIn_deleteIdentity {counted : Bool} {u : Id} (h : WayIn s u)
    (howns : Owns s userId identityId)
    (hpassword : counted = false → s.HasPassword userId)
    (htimely : counted = true → s.HasPassword userId ∨ s.others userId identityId ≠ []) :
    WayIn (s.deleteIdentity identityId) u := by
  obtain hway | ⟨i, hi, rfl⟩ := h
  · exact .inl hway
  by_cases hid : i.id = identityId
  · obtain rfl : i.userId = userId := howns i hi hid
    have hcase : s.HasPassword i.userId ∨ s.others i.userId identityId ≠ [] := by
      cases counted with
      | false => exact .inl (hpassword rfl)
      | true => exact htimely rfl
    obtain hway | hothers := hcase
    · exact .inl hway
    · obtain ⟨j, hj⟩ := List.exists_mem_of_ne_nil _ hothers
      obtain ⟨hj, huser, hne⟩ := mem_others.mp hj
      exact .inr ⟨j, Keyed.mem_filter.mpr ⟨hj, decide_eq_true hne⟩, huser⟩
  · exact .inr ⟨i, Keyed.mem_filter.mpr ⟨hi, decide_eq_true hid⟩, rfl⟩

theorem wayIn_deleteProvider {u : Account} (hu : u ∈ s.users) (h : WayIn s u.id)
    (hcovered : Covered s id counted) (htimely : ∀ v ∈ counted, s.elsewhere v id ≠ []) :
    WayIn (s.deleteProvider id) u.id := by
  obtain hway | ⟨i, hi, huser⟩ := h
  · exact .inl hway
  by_cases hcfg : i.ssoConfigId = id
  · have hcase := hcovered i hi hcfg
    rw [huser] at hcase
    obtain hmem | hway | hgone := hcase
    · obtain ⟨j, hj⟩ := List.exists_mem_of_ne_nil _ (htimely _ hmem)
      obtain ⟨hj, huser, hne⟩ := mem_elsewhere.mp hj
      exact .inr ⟨j, Keyed.mem_filter.mpr ⟨hj, decide_eq_true hne⟩, huser⟩
    · exact .inl hway
    · rw [Keyed.find_key hu] at hgone
      cases hgone
  · exact .inr ⟨i, Keyed.mem_filter.mpr ⟨hi, decide_eq_true hcfg⟩, huser⟩

theorem wayIn_effect {i : Nat} {u : Account} (hu : u ∈ s.users) (h : WayIn s u.id)
    (ha : Assert s i k) (hok : timely s k = true) : WayIn (effect s k) u.id := by
  cases k with
  | deleteIdentity userId identityId counted =>
    refine wayIn_deleteIdentity h ha.1 ha.2 fun hc ↦ ?_
    exact of_decide_eq_true hok hc
  | deleteProvider id counted =>
    simp only [effect]
    split
    · refine wayIn_deleteProvider hu h ha fun v hv ↦ ?_
      exact of_decide_eq_true (List.all_eq_true.mp hok v hv)
    · exact h
  | _ => exact h

end

/-! ## Nobody is locked out -/

/-- The users are those there were, and who had a way in has one. -/
def KeepsWayIn (s₀ s : Store) : Prop :=
  s.users = s₀.users ∧ ∀ u ∈ s₀.users, WayIn s₀ u.id → WayIn s u.id

theorem program_keeps (s₀ : Store) : program.Keeps Undisturbed (KeepsWayIn s₀) Assert where
  spawn s i a _ := by cases a <;> trivial
  act p i k out s' k' hp hk hact hok := by
    obtain ⟨rfl, rfl⟩ := Prod.mk.inj (Option.some.inj hact)
    have hok : timely p.store k = true ∧ forced k = false := by
      simpa [Undisturbed, undisturbed, hk] using hok
    have husers := users_effect p.store k
    refine ⟨⟨husers.trans hp.1.1, ?_⟩, ?_, ?_⟩
    · intro u hu hway
      exact wayIn_effect (hp.1.1 ▸ hu) (hp.1.2 u hu hway) (hp.2 i k hk) hok.1
    · intro l hl
      exact (assert_next (hp.2 i k hk) hok.2 hl).mono husers fun _ ↦ identities_effect
    · intro j l _ hl
      exact (hp.2 j l hl).mono husers fun _ ↦ identities_effect
  abort p i k hp _ := ⟨hp.1, fun j l _ hl ↦ hp.2 j l hl⟩
  env _ d := d.elim

/-- **Unlinking locks nobody out in a run in which no deletion is overtaken.** -/
theorem run_keepsWayIn {s : Store} {p : Pool Store Call} {es : List (Event Operation Outside Empty)}
    (hr : Run program.step Undisturbed (Program.idle Call s) es p) :
    ∀ u ∈ s.users, WayIn s u.id → WayIn p.store u.id := by
  have hinit : KeepsWayIn s s := ⟨rfl, fun _ _ h ↦ h⟩
  exact ((program_keeps s).run (Program.holds_idle hinit) hr).1.2

def twoIdentities : Store where
  users := ⟨[{ id := "u1", orgId := "o1", email := "ana@x" }], by decide⟩
  identities := ⟨[
    { id := "i1", orgId := "o1", userId := "u1", ssoConfigId := "c1", provider := "oidc",
      subject := "s1" },
    { id := "i2", orgId := "o1", userId := "u1", ssoConfigId := "c2", provider := "github",
      subject := "s2" }], by decide⟩
  ssoConfigs := ⟨[{ id := "c1", orgId := "o1" }, { id := "c2", orgId := "o1" }], by decide⟩

def oneAfterTheOther : List (Event Operation Outside Empty) :=
  [.spawn 0 (.deleteUserIdentity "u1" "i1" none), .act 0 {}, .act 0 {}, .act 0 {}, .act 0 {},
    .spawn 0 (.deleteUserIdentity "u1" "i2" none), .spawn 1 (.deleteProvider "o1" "c1" false),
    .act 0 {}, .act 1 {}, .act 0 {}, .act 1 {}, .act 0 {}, .act 1 {}]

theorem run_keepsWayIn_twoIdentities : ∃ p : Pool Store Call,
    (∀ u ∈ twoIdentities.users, WayIn twoIdentities u.id → WayIn p.store u.id) ∧
      p.store.identities.rows.map UserIdentity.id = ["i2"] := by
  have h : execIf program.step undisturbed (Program.idle Call twoIdentities) oneAfterTheOther =
      some _ := rfl
  exact ⟨_, run_keepsWayIn (run_of_execIf h), rfl⟩

def bothAtOnce : List (Event Operation Outside Empty) :=
  [.spawn 0 (.deleteUserIdentity "u1" "i1" none), .spawn 1 (.deleteUserIdentity "u1" "i2" none),
    .act 0 {}, .act 1 {}, .act 0 {}, .act 1 {}, .act 0 {}, .act 1 {}, .act 0 {}, .act 1 {}]

/-- Either call counts the identity that the other is about to delete. -/
theorem last_identity_deleted : ∃ p : Pool Store Call,
    Run program.step free (Program.idle Call twoIdentities) bothAtOnce p ∧
      ¬ ∀ u ∈ twoIdentities.users, WayIn twoIdentities u.id → WayIn p.store u.id := by
  have h : exec program.step (Program.idle Call twoIdentities) bothAtOnce = some _ := rfl
  refine ⟨_, run_of_exec h, ?_⟩
  intro hall
  exact absurd (hall _ (List.mem_singleton.mpr rfl) (by decide)) (by decide)

end Shellius.Sso.Unlink
