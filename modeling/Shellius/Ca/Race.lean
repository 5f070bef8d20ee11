import Shellius.Ca.KeyPairs
import Shellius.Lib.Pool

/-!
# One active key

Any number of calls of `generateCaKeyPair`, `rotateCaKeyPair` and
`signCertificate` at once, each of their commands to the database on its own.
A write of the first two is fine exactly when it finds the active keys the call
reckons with: none for the two writes of a generation, the key it read for the
swap of a rotation.  Neither function makes sure of that.
-/

namespace Shellius.CaRace

open Lib

/-! ## The program -/

/-- A certificate, by the command line that made it. -/
structure SignedCert where
  orgId : Id
  args : KeygenArgs

/-- The key pairs, and every certificate signed so far, the last one first. -/
structure CaStore where
  caKeyPairs : List CaKeyPair := []
  signed : List SignedCert := []
  /-- `CaKeyPair.id` is a primary key. -/
  idKey : ((rowKeys caKeyPairs).map Prod.fst).Nodup := by decide

namespace CaStore

/-- `updateMany({ where: { orgId, isActive: true }, data: { isActive: false } })` -/
def deactivate (s : CaStore) (orgId : Id) : CaStore :=
  { s with
    caKeyPairs := deactivateAll orgId s.caKeyPairs
    idKey := by rw [rowKeys_deactivateAll]; exact s.idKey }

/-- Switch the key that was read off, if one was. -/
def retire (s : CaStore) (current : Option CaKeyPair) (now : Millis) : CaStore :=
  match current with
  | none => s
  | some k =>
    { s with
      caKeyPairs := Shellius.retire k.id now s.caKeyPairs
      idKey := by rw [rowKeys_retire]; exact s.idKey }

def addKey (s : CaStore) (id orgId : Id) (name : String) (m : KeyMaterial)
    (h : isFreeKey s.caKeyPairs id m = true) : CaStore :=
  { s with
    caKeyPairs := s.caKeyPairs ++ [newKeyPair id orgId name m]
    idKey := by
      rw [rowKeys_append, rowKeys_newKeyPair, List.map_append, List.nodup_append']
      refine ⟨s.idKey, by simp, List.disjoint_right.mpr ?_⟩
      simpa [map_fst_rowKeys] using fresh_of_isFreeKey h }

end CaStore

inductive Request where
  | generate (orgId : Id) (name : String)
  | rotate (orgId : Id) (name : String)
  | sign (params : SignParams)

inductive Call where
  | generate (orgId : Id) (name : String)
  | generating (orgId : Id) (name : String) (m : KeyMaterial)
  | rotate (orgId : Id) (name : String)
  | rotating (orgId : Id) (name : String) (current : Option CaKeyPair)
  | sign (params : SignParams)
  | /-- The active key is read, `ssh-keygen` is to run. -/
    signing (params : SignParams) (caKey : CaKeyPair)

inductive Command where
  | /-- `updateMany`, with the key made before. -/
    deactivate (m : KeyMaterial)
  | create (id : Id)
  | /-- `findFirst` -/
    read
  | swap (id : Id) (m : KeyMaterial) (now : Millis)
  | /-- The run of `ssh-keygen`. -/
    issue (serial : Nat)

def start : Request → Call
  | .generate orgId name => .generate orgId name
  | .rotate orgId name => .rotate orgId name
  | .sign params => .sign params

/-- One command of a call.  A call that throws has returned; a command that
fails is the end of its call like any other death. -/
def act (s : CaStore) : Call → Command → Option (CaStore × Option Call)
  | .generate orgId name, .deactivate m =>
    if orgId = "" ∨ name = "" then some (s, none)
    else some (s.deactivate orgId, some (.generating orgId name m))
  | .generating orgId name m, .create id =>
    if h : isFreeKey s.caKeyPairs id m then some (s.addKey id orgId name m h, none) else none
  | .rotate orgId name, .read =>
    if orgId = "" ∨ name = "" then some (s, none)
    else some (s, some (.rotating orgId name (activeKey s.caKeyPairs orgId)))
  | .rotating orgId name current, .swap id m now =>
    if h : isFreeKey (s.retire current now).caKeyPairs id m then
      some ((s.retire current now).addKey id orgId name m h, none)
    else none
  | .sign params, .read =>
    match checkSign params, activeKey s.caKeyPairs params.orgId with
    | .ok (), some k => some (s, some (.signing params k))
    | _, _ => some (s, none)
  | .signing params k, .issue serial =>
    some ({ s with signed := ⟨params.orgId, keygenArgs params k serial⟩ :: s.signed }, none)
  | _, _ => none

def program : Program CaStore Request Call Command Empty where
  start := start
  act := fun _ ↦ act
  env := fun _ d ↦ d.elim

/-! ## What is promised -/

/-- Once the organization has a key, exactly one key is active. -/
def OneActive (orgId : Id) (s : CaStore) : Prop :=
  (∃ k ∈ s.caKeyPairs, k.orgId = orgId) → (activeKeys s.caKeyPairs orgId).length = 1

/-- The run from an idle store to `p` passes through a state in which the call
now in slot `i` is under way already and the key is an active key of the
organization. -/
def PassesActive (s : CaStore) (es : List (Event Request Command Empty)) (p : Pool CaStore Call)
    (i : Nat) (orgId : Id) (caKey : CaKeyPair) : Prop :=
  ∃ es₁ es₂ m, es = es₁ ++ es₂ ∧ Run program.step free (Program.idle Call s) es₁ m ∧
    Run program.step free m es₂ p ∧ (m.calls i).isSome ∧ (∀ a, Event.spawn i a ∉ es₂) ∧
    caKey ∈ m.store.caKeyPairs ∧ caKey.isActive = true ∧ caKey.orgId = orgId

/-- Every certificate of the run was signed with a key that was active at some
moment of the call that signed it. -/
def SignedWithActive (s : CaStore) (es : List (Event Request Command Empty)) : Prop :=
  ∀ es₁ es₂ i serial t u, es = es₁ ++ .act i (.issue serial) :: es₂ →
    Run program.step free (Program.idle Call s) es₁ t →
    program.step t (.act i (.issue serial)) = some u →
    ∃ c, u.store.signed = c :: t.store.signed ∧ PassesActive s es₁ t i c.orgId c.args.caKey

/-- The active keys a write reckons with. -/
def expected : Call → Command → Option (List Id)
  | .generate orgId name, .deactivate _ => if orgId = "" ∨ name = "" then none else some []
  | .generating .., .create _ => some []
  | .rotating _ _ current, .swap .. => some (current.map CaKeyPair.id).toList
  | _, _ => none

/-- The organization a call is about. -/
def Call.orgId : Call → Id
  | .generate orgId _ | .generating orgId _ _ | .rotate orgId _ | .rotating orgId _ _ => orgId
  | .sign params | .signing params _ => params.orgId

/-- A write to the keys of the organization finds the active keys it reckons
with. -/
def Undisturbed (orgId : Id) (p : Pool CaStore Call) : Event Request Command Empty → Prop
  | .act i e => ∀ k ∈ p.calls i, k.orgId = orgId → ∀ ids ∈ expected k e,
      activeKeys p.store.caKeyPairs orgId = ids
  | _ => True

instance (orgId : Id) (p : Pool CaStore Call) :
    (ev : Event Request Command Empty) → Decidable (Undisturbed orgId p ev)
  | .act i e => inferInstanceAs (Decidable (∀ k ∈ p.calls i, k.orgId = orgId → ∀ ids ∈ expected k e,
      activeKeys p.store.caKeyPairs orgId = ids))
  | .spawn _ _ | .abort _ | .env _ => isTrue trivial

/-! ## Steps -/

section

variable {orgId : Id} {s s' : CaStore} {k : Call} {k' : Option Call} {e : Command}

inductive Writes (s : CaStore) : Call → Command → List CaKeyPair → Prop
  | nothing {k : Call} {e : Command} : expected k e = none → Writes s k e s.caKeyPairs
  | /-- `generateCaKeyPair` switches the active keys off. -/
    off {o : Id} {name : String} {m : KeyMaterial} :
      expected (.generate o name) (.deactivate m) = some [] →
      Writes s (.generate o name) (.deactivate m) (deactivateAll o s.caKeyPairs)
  | /-- `generateCaKeyPair` adds its key. -/
    added {o id : Id} {name : String} {m : KeyMaterial} :
      Writes s (.generating o name m) (.create id) (s.caKeyPairs ++ [newKeyPair id o name m])
  | /-- `rotateCaKeyPair` swaps the keys. -/
    swapped {o id : Id} {name : String} {m : KeyMaterial} {current : Option CaKeyPair}
      {now : Millis} :
      Writes s (.rotating o name current) (.swap id m now)
        ((s.retire current now).caKeyPairs ++ [newKeyPair id o name m])

theorem writes_of_act (h : act s k e = some (s', k')) : Writes s k e s'.caKeyPairs := by
  cases k with
  | generate o name =>
    cases e with
    | deactivate m =>
      simp only [act] at h
      split at h
      · rename_i hv
        obtain ⟨rfl, -⟩ := Prod.ext_iff.mp (Option.some.inj h)
        exact .nothing (by rw [expected, if_pos hv])
      · rename_i hv
        obtain ⟨rfl, -⟩ := Prod.ext_iff.mp (Option.some.inj h)
        exact .off (by rw [expected, if_neg hv])
    | _ => cases h
  | generating o name m =>
    cases e with
    | create id =>
      simp only [act] at h
      split at h
      · obtain ⟨rfl, -⟩ := Prod.ext_iff.mp (Option.some.inj h)
        exact .added
      · cases h
    | _ => cases h
  | rotate o name =>
    cases e with
    | read =>
      simp only [act] at h
      split at h <;> obtain ⟨rfl, -⟩ := Prod.ext_iff.mp (Option.some.inj h) <;>
        exact .nothing rfl
    | _ => cases h
  | rotating o name current =>
    cases e with
    | swap id m now =>
      simp only [act] at h
      split at h
      · obtain ⟨rfl, -⟩ := Prod.ext_iff.mp (Option.some.inj h)
        exact .swapped
      · cases h
    | _ => cases h
  | sign params =>
    cases e with
    | read =>
      simp only [act] at h
      split at h <;> obtain ⟨rfl, -⟩ := Prod.ext_iff.mp (Option.some.inj h) <;>
        exact .nothing rfl
    | _ => cases h
  | signing params caKey =>
    cases e with
    | issue serial =>
      obtain ⟨rfl, -⟩ := Prod.ext_iff.mp (Option.some.inj h)
      exact .nothing rfl
    | _ => cases h

/-- The key a rotation read is a row of its organization still. -/
def Remembers (s : CaStore) : Call → Prop
  | .rotating o _ (some k) => (k.id, o) ∈ rowKeys s.caKeyPairs
  | _ => True

theorem activeKeys_retire_eq (s : CaStore) (orgId : Id) (current : Option CaKeyPair)
    (now : Millis) : activeKeys (s.retire current now).caKeyPairs orgId =
      (activeKeys s.caKeyPairs orgId).filter fun j ↦ ∀ k ∈ current, j ≠ k.id := by
  cases current with
  | none => simp [CaStore.retire]
  | some k => simpa [CaStore.retire] using activeKeys_retire k.id now

@[simp] theorem rowKeys_retire_eq (s : CaStore) (current : Option CaKeyPair) (now : Millis) :
    rowKeys (s.retire current now).caKeyPairs = rowKeys s.caKeyPairs := by
  cases current with
  | none => rfl
  | some k => exact rowKeys_retire k.id now

theorem Writes.rowKeys_eq {keys : List CaKeyPair} (h : Writes s k e keys) :
    rowKeys keys = rowKeys s.caKeyPairs ∨
      ∃ id, rowKeys keys = rowKeys s.caKeyPairs ++ [(id, k.orgId)] := by
  cases h with
  | nothing => exact .inl rfl
  | off => exact .inl (rowKeys_deactivateAll _)
  | @added o id name m => exact .inr ⟨id, by simp [Call.orgId]⟩
  | @swapped o id name m current now => exact .inr ⟨id, by simp [Call.orgId]⟩

theorem Remembers.mono {keys : List CaKeyPair} {l : Call} (h : Remembers s l)
    (hw : Writes s k e keys) (hs : s'.caKeyPairs = keys) : Remembers s' l := by
  have hsub : ∀ x ∈ rowKeys s.caKeyPairs, x ∈ rowKeys s'.caKeyPairs := by
    intro x hx
    rw [hs]
    obtain he | ⟨id, he⟩ := hw.rowKeys_eq
    · rwa [he]
    · rw [he]; exact List.mem_append_left _ hx
  cases l with
  | rotating o name current =>
    cases current with
    | none => trivial
    | some c => exact hsub _ h
  | _ => trivial

theorem Writes.eq_of_expected_eq_none {keys : List CaKeyPair} (h : Writes s k e keys)
    (he : expected k e = none) : keys = s.caKeyPairs := by
  cases h with
  | nothing => rfl
  | off hoff => rw [hoff] at he; cases he
  | added | swapped => cases he

theorem Writes.activeKeys_of_ne {keys : List CaKeyPair} (h : Writes s k e keys)
    (ho : k.orgId ≠ orgId) (hr : Remembers s k) :
    activeKeys keys orgId = activeKeys s.caKeyPairs orgId := by
  cases h with
  | nothing => rfl
  | off => exact activeKeys_deactivateAll_of_ne ho
  | added =>
    simp only [Call.orgId] at ho
    simp [activeKeys_append, activeKeys_newKeyPair, ho]
  | @swapped o id name m current now =>
    simp only [Call.orgId] at ho
    rw [activeKeys_append, activeKeys_newKeyPair, if_neg ho, List.append_nil,
      activeKeys_retire_eq, List.filter_eq_self]
    intro j hj
    rw [decide_eq_true_eq]
    rintro c rfl rfl
    -- one row cannot be of two organizations
    obtain ⟨a, ha, hao, -, hid⟩ := exists_of_mem_activeKeys hj
    obtain ⟨b, hb, hbid, hbo⟩ := mem_rowKeys.mp hr
    have hkey : (s.caKeyPairs.map CaKeyPair.id).Nodup := by
      rw [← map_fst_rowKeys]; exact s.idKey
    have hab : a = b := List.inj_on_of_nodup_map hkey ha hb (hid.trans hbid.symm)
    exact ho (hbo.symm.trans ((congrArg CaKeyPair.orgId hab).symm.trans hao))

/-- A command for the organization leaves exactly one key active just when it
finds the active keys it reckons with. -/
theorem Writes.oneActive_iff {keys : List CaKeyPair} {ids : List Id} (h : Writes s k e keys)
    (hone : OneActive k.orgId s) (hr : Remembers s k) (he : expected k e = some ids) :
    ((∃ x ∈ keys, x.orgId = k.orgId) → (activeKeys keys k.orgId).length = 1) ↔
      activeKeys s.caKeyPairs k.orgId = ids := by
  cases h with
  | nothing hn => rw [hn] at he; cases he
  | @off o name m hoff =>
    obtain rfl := Option.some.inj (hoff.symm.trans he)
    have hrow : (∃ x ∈ deactivateAll o s.caKeyPairs, x.orgId = o) ↔
        ∃ x ∈ s.caKeyPairs, x.orgId = o := by
      rw [← exists_mem_rowKeys, rowKeys_deactivateAll, exists_mem_rowKeys]
    simp only [Call.orgId, activeKeys_deactivateAll_self, hrow] at hone ⊢
    constructor
    · intro h
      by_contra hne
      obtain ⟨j, hj⟩ := List.exists_mem_of_ne_nil _ hne
      obtain ⟨x, hx, hxo, -, -⟩ := exists_of_mem_activeKeys hj
      exact absurd (h ⟨x, hx, hxo⟩) (by simp)
    · intro h hrow
      have := hone hrow
      rw [h] at this
      exact absurd this (by simp)
  | @added o id name m =>
    obtain rfl := Option.some.inj he
    have hrow : ∃ x ∈ s.caKeyPairs ++ [newKeyPair id o name m], x.orgId = o :=
      ⟨_, List.mem_append_right _ (List.mem_singleton_self _), rfl⟩
    simp only [Call.orgId, activeKeys_append, activeKeys_newKeyPair, if_true, hrow, true_imp_iff,
      List.length_append, List.length_singleton, Nat.add_eq_right, List.length_eq_zero_iff]
  | @swapped o id name m current now =>
    obtain rfl := Option.some.inj he
    simp only [Call.orgId, activeKeys_append, activeKeys_newKeyPair, if_true,
      activeKeys_retire_eq] at hone ⊢
    have hrow : ∃ x ∈ (s.retire current now).caKeyPairs ++ [newKeyPair id o name m],
        x.orgId = o := ⟨_, List.mem_append_right _ (List.mem_singleton_self _), rfl⟩
    simp only [hrow, true_imp_iff, List.length_append, List.length_singleton,
      Nat.add_eq_right, List.length_eq_zero_iff]
    cases current with
    | none => simp
    | some c =>
      obtain ⟨b, hb, -, hbo⟩ := mem_rowKeys.mp hr
      obtain ⟨j, hj⟩ := List.length_eq_one_iff.mp (hone ⟨b, hb, hbo⟩)
      simp [hj]

/-! ### Steps of the pool -/

/-- Every rotation under way remembers a row that is there. -/
def Remembering : Pool CaStore Call → Prop := Program.Holds (fun _ ↦ True) fun s _ k ↦ Remembers s k

/-- A call that goes on has switched the active keys off, or has read one. -/
inductive GoesOn (s : CaStore) : Call → CaStore → Call → Prop
  | /-- `generateCaKeyPair` has switched them off. -/
    switches {o : Id} {name : String} {m : KeyMaterial} :
      GoesOn s (.generate o name) (s.deactivate o) (.generating o name m)
  | /-- `rotateCaKeyPair` has read the active key. -/
    rotates {o : Id} {name : String} :
      GoesOn s (.rotate o name) s (.rotating o name (activeKey s.caKeyPairs o))
  | /-- `signCertificate` has. -/
    signs {params : SignParams} {caKey : CaKeyPair} :
      activeKey s.caKeyPairs params.orgId = some caKey →
      GoesOn s (.sign params) s (.signing params caKey)

theorem goesOn_of_act {l : Call} (h : act s k e = some (s', some l)) : GoesOn s k s' l := by
  cases k with
  | generate o name =>
    cases e with
    | deactivate m =>
      simp only [act] at h
      split at h
      · cases h
      · cases h
        exact .switches
    | _ => cases h
  | generating o name m =>
    cases e with
    | create id => simp only [act] at h; split at h <;> cases h
    | _ => cases h
  | rotate o name =>
    cases e with
    | read =>
      simp only [act] at h
      split at h
      · cases h
      · cases h
        exact .rotates
    | _ => cases h
  | rotating o name current =>
    cases e with
    | swap id m now => simp only [act] at h; split at h <;> cases h
    | _ => cases h
  | sign params =>
    cases e with
    | read =>
      simp only [act] at h
      split at h
      · rename_i hk
        cases h
        exact .signs hk
      · cases h
    | _ => cases h
  | signing params caKey =>
    cases e with
    | issue serial => cases h
    | _ => cases h

theorem remembers_of_act (h : act s k e = some (s', k')) :
    ∀ l, k' = some l → Remembers s' l := by
  intro l hl
  subst hl
  cases goesOn_of_act h with
  | switches | signs => trivial
  | @rotates o name =>
    cases hk : activeKey s.caKeyPairs o with
    | none => trivial
    | some c =>
      obtain ⟨hc, hco, -⟩ := activeKey_spec hk
      exact mem_rowKeys.mpr ⟨c, hc, rfl, hco⟩

theorem remembering_keeps :
    program.Keeps free (fun _ ↦ True) fun s _ k ↦ Remembers s k where
  spawn := fun s i a _ ↦ by cases a <;> trivial
  act := fun p i k e s' k' hp hk hact _ ↦
    ⟨trivial, remembers_of_act hact, fun j l _ hj ↦ (hp.2 j l hj).mono (writes_of_act hact) rfl⟩
  abort := fun p i k hp hk ↦ ⟨trivial, fun j l _ hj ↦ hp.2 j l hj⟩
  env := fun _ d ↦ d.elim

variable {p q : Pool CaStore Call} {ev : Event Request Command Empty}

/-- A step leaves exactly one key active just when it is not disturbed. -/
theorem oneActive_step_iff (hp : Remembering p) (hone : OneActive orgId p.store)
    (hs : program.step p ev = some q) : OneActive orgId q.store ↔ Undisturbed orgId p ev := by
  cases ev with
  | spawn i a =>
    obtain ⟨-, rfl⟩ := Program.step_spawn hs
    exact ⟨fun _ ↦ trivial, fun _ ↦ hone⟩
  | abort i =>
    obtain ⟨k, -, rfl⟩ := Program.step_abort hs
    exact ⟨fun _ ↦ trivial, fun _ ↦ hone⟩
  | env d => exact d.elim
  | act i e =>
    obtain ⟨k, ⟨s', k'⟩, hk, hact, rfl⟩ := Program.step_act hs
    have hw := writes_of_act hact
    have hr : Remembers p.store k := hp.2 i k hk
    have hund : Undisturbed orgId p (.act i e) ↔ (k.orgId = orgId → ∀ ids, expected k e = some ids →
        activeKeys p.store.caKeyPairs orgId = ids) := by
      constructor
      · intro h ho ids he
        exact h k hk ho ids he
      · intro h l hl ho ids he
        obtain rfl := Option.some.inj (hk.symm.trans hl)
        exact h ho ids he
    rw [hund]
    by_cases ho : k.orgId = orgId
    · subst ho
      cases he : expected k e with
      | none =>
        refine ⟨fun _ _ ids hids ↦ (by cases hids), fun _ ↦ ?_⟩
        rw [OneActive, hw.eq_of_expected_eq_none he]
        exact hone
      | some ids =>
        rw [OneActive, hw.oneActive_iff hone hr he]
        constructor
        · rintro h - ids' hids'
          rwa [← Option.some.inj hids']
        · intro h
          exact h rfl ids rfl
    · have hrow : (∃ x ∈ s'.caKeyPairs, x.orgId = orgId) ↔
          ∃ x ∈ p.store.caKeyPairs, x.orgId = orgId := by
        rw [← exists_mem_rowKeys, ← exists_mem_rowKeys]
        obtain h | ⟨id, h⟩ := hw.rowKeys_eq
        · rw [h]
        · simp [h, Ne.symm ho]
      refine ⟨fun _ h ↦ absurd h ho, fun _ ↦ ?_⟩
      rw [OneActive, hw.activeKeys_of_ne ho hr, hrow]
      exact hone

/-! ### Where a signing key comes from -/

theorem act_eq_signing {params : SignParams} {caKey : CaKeyPair}
    (h : act s k e = some (s', some (.signing params caKey))) :
    k = .sign params ∧ activeKey s.caKeyPairs params.orgId = some caKey := by
  cases goesOn_of_act h with
  | signs hk => exact ⟨rfl, hk⟩

theorem PassesActive.snoc {es : List (Event Request Command Empty)} {i : Nat} {caKey : CaKeyPair}
    (h : PassesActive s es p i orgId caKey) (hs : program.step p ev = some q)
    (hne : ∀ a, ev ≠ .spawn i a) : PassesActive s (es ++ [ev]) q i orgId caKey := by
  obtain ⟨es₁, es₂, m, rfl, hrun₁, hrun₂, hsome, hno, hkey⟩ := h
  refine ⟨es₁, es₂ ++ [ev], m, by simp, hrun₁, hrun₂.snoc hs trivial, hsome, ?_, hkey⟩
  intro a ha
  obtain ha | ha := List.mem_append.mp ha
  · exact hno a ha
  · exact hne a (List.mem_singleton.mp ha).symm

theorem signing_passesActive {es : List (Event Request Command Empty)}
    (h : Run program.step free (Program.idle Call s) es p) {i : Nat} {params : SignParams}
    {caKey : CaKeyPair} (hi : p.calls i = some (.signing params caKey)) :
    PassesActive s es p i params.orgId caKey := by
  induction h with
  | nil => cases hi
  | @snoc es t u ev hrun hs _ ih =>
    cases ev with
    | spawn j a =>
      obtain ⟨-, rfl⟩ := Program.step_spawn hs
      by_cases hj : i = j
      · subst hj
        have : start a = .signing params caKey := by simpa [program] using hi
        cases a <;> cases this
      · have hti : t.calls i = some (.signing params caKey) := by
          simpa [Function.update_of_ne hj] using hi
        exact (ih hti).snoc hs fun b hb ↦ hj (Event.spawn.inj hb).1.symm
    | abort j =>
      obtain ⟨k, -, rfl⟩ := Program.step_abort hs
      by_cases hj : i = j
      · subst hj; simp at hi
      · have hti : t.calls i = some (.signing params caKey) := by
          simpa [Function.update_of_ne hj] using hi
        exact (ih hti).snoc hs (by rintro b ⟨⟩)
    | env d => exact d.elim
    | act j e =>
      obtain ⟨k, ⟨s', k'⟩, hk, hact, rfl⟩ := Program.step_act hs
      by_cases hj : i = j
      · subst hj
        obtain rfl : k' = some (.signing params caKey) := by simpa using hi
        obtain ⟨rfl, hactive⟩ := act_eq_signing hact
        obtain ⟨hmem, ho, ha⟩ := activeKey_spec hactive
        exact ⟨es, [_], t, rfl, hrun, .single hs trivial, by simp [hk], by simp, hmem, ha, ho⟩
      · have hti : t.calls i = some (.signing params caKey) := by
          simpa [Function.update_of_ne hj] using hi
        exact (ih hti).snoc hs (by rintro b ⟨⟩)

theorem signedWithActive (s : CaStore) (es : List (Event Request Command Empty)) :
    SignedWithActive s es := by
  rintro es₁ es₂ i serial t u - hrun hs
  obtain ⟨k, ⟨s', k'⟩, hk, hact, rfl⟩ := Program.step_act hs
  cases k with
  | signing params caKey =>
    obtain ⟨rfl, -⟩ := Prod.ext_iff.mp (Option.some.inj hact)
    exact ⟨_, rfl, signing_passesActive hrun hk⟩
  | _ => cases hact

/-! ## Runs -/

/-- In a run that starts with one active key (or none at all yet), every state
has one active key, and every certificate is signed with a key active during its
call, just when no write of the run is disturbed. -/
theorem run_oneActive_iff (hone : OneActive orgId s) {es : List (Event Request Command Empty)} :
    (Run program.step (fun _ _ q ↦ OneActive orgId q.store) (Program.idle Call s) es p ∧
        SignedWithActive s es) ↔
      Run program.step (fun p ev _ ↦ Undisturbed orgId p ev) (Program.idle Call s) es p := by
  have hidle : Remembering (Program.idle Call s) ∧ OneActive orgId (Program.idle Call s).store :=
    ⟨Program.holds_idle trivial, hone⟩
  constructor
  · rintro ⟨h, -⟩
    refine h.mono_of_invariant (I := fun p ↦ Remembering p ∧ OneActive orgId p.store) hidle ?_
    rintro t ev u ⟨hr, ht⟩ hs hu
    exact ⟨⟨remembering_keeps.step hr hs trivial, hu⟩, (oneActive_step_iff hr ht hs).mp hu⟩
  · intro h
    refine ⟨?_, signedWithActive s es⟩
    refine h.mono_of_invariant (I := fun p ↦ Remembering p ∧ OneActive orgId p.store) hidle ?_
    rintro t ev u ⟨hr, ht⟩ hs hu
    have hone' := (oneActive_step_iff hr ht hs).mpr hu
    exact ⟨⟨remembering_keeps.step hr hs trivial, hone'⟩, hone'⟩

end

def firstKey : CaStore where
  caKeyPairs := [newKeyPair "k1" "o1" "primary" ⟨"pub1", "enc1", "SHA256:1"⟩]

def deployCertificate : SignParams where
  orgId := "o1"
  publicKey := "ssh-ed25519 A"
  principals := ["deploy"]
  validitySeconds := 600
  keyId := "ana@acme.io"

def firstCertificate : List (Event Request Command Empty) :=
  [.spawn 0 (.generate "o1" "primary"), .act 0 (.deactivate ⟨"pub1", "enc1", "SHA256:1"⟩),
    .act 0 (.create "k1"), .spawn 1 (.sign deployCertificate), .act 1 .read, .act 1 (.issue 7)]

/-- The first key is the only one, and the certificate is signed with it. -/
theorem firstCertificate_oneActive :
    ∃ p, (Run program.step (fun _ _ q ↦ OneActive "o1" q.store) (Program.idle Call {})
        firstCertificate p ∧ SignedWithActive {} firstCertificate) ∧
      activeKeys p.store.caKeyPairs "o1" = ["k1"] := by
  have h : execIf program.step (fun p ev ↦ decide (Undisturbed "o1" p ev)) (Program.idle Call {})
      firstCertificate = some _ := rfl
  refine ⟨_, (run_oneActive_iff ?_).mpr ((run_of_execIf h).mono fun _ _ _ ↦ of_decide_eq_true), rfl⟩
  rintro ⟨k, hk, -⟩
  cases hk

def halfGeneration : List (Event Request Command Empty) :=
  [.spawn 0 (.generate "o1" "second"), .act 0 (.deactivate ⟨"pub2", "enc2", "SHA256:2"⟩), .abort 0]

def twoRotations : List (Event Request Command Empty) :=
  [.spawn 0 (.rotate "o1" "second"), .spawn 1 (.rotate "o1" "third"), .act 0 .read, .act 1 .read,
    .act 0 (.swap "k2" ⟨"pub2", "enc2", "SHA256:2"⟩ 1000),
    .act 1 (.swap "k3" ⟨"pub3", "enc3", "SHA256:3"⟩ 1001)]

/-- An organization with its first key may end up with none, or with two. -/
theorem firstKey_lost_or_doubled :
    OneActive "o1" firstKey ∧
      (∃ p, Run program.step free (Program.idle Call firstKey) halfGeneration p ∧
        activeKeys p.store.caKeyPairs "o1" = [] ∧ ¬ OneActive "o1" p.store) ∧
      ∃ p, Run program.step free (Program.idle Call firstKey) twoRotations p ∧
        activeKeys p.store.caKeyPairs "o1" = ["k2", "k3"] ∧ ¬ OneActive "o1" p.store := by
  have hhalf : exec program.step (Program.idle Call firstKey) halfGeneration = some _ := rfl
  have htwo : exec program.step (Program.idle Call firstKey) twoRotations = some _ := rfl
  refine ⟨fun _ ↦ rfl, ⟨_, run_of_exec hhalf, rfl, fun h ↦ ?_⟩, ⟨_, run_of_exec htwo, rfl, fun h ↦ ?_⟩⟩
  · exact absurd (h ⟨_, List.mem_singleton_self _, rfl⟩) (by decide)
  · exact absurd (h ⟨_, List.mem_cons_self, rfl⟩) (by decide)

end Shellius.CaRace
