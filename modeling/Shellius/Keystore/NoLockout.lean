import Shellius.Keystore.Rotation

/-!
# A rotation locks no server out

Every server of a batch accepts the old or the new key of the batch in every state that is
reached: the old key is removed only where a login with the new one was verified, and the new
key is never removed.  The identities are repointed once at most, when every deployment has
succeeded, and then every server accepts the new key.

This is so for two keys that differ, and for as long as the options of the batch and its lock
are kept.  In between, a server may well accept no key that its identity uses: where the
rotation has succeeded on some servers only, the old key is gone from them and the identity
has not been repointed.
-/

namespace Shellius.Rotation

open Lib

/-! ## Histories of a batch -/

def Admissible (servers : List Id) (l : List Note) : Note → Prop
  | .removed serverId => .verified serverId ∈ l
  | .locked _ => ∀ j, .locked j ∉ l
  | .repointed => .repointed ∉ l ∧ ∀ serverId ∈ servers, .succeeded serverId ∈ l
  | .verified _ | .succeeded _ => True

def isKept : Event (Id × Operation) Outside Change → Bool
  | .env .expireMeta | .env .expireLock => false
  | _ => true

/-- Runs within the life of the batch. -/
def Kept (_ : Pool Store Call) (e : Event (Id × Operation) Outside Change)
    (_ : Pool Store Call) : Prop := isKept e = true

section

variable {servers : List Id} {l : List Note} {i j : Nat}

theorem locked_unique (h : Orderly (Admissible servers) l) (hi : .locked i ∈ l)
    (hj : .locked j ∈ l) : i = j := by
  obtain heq | ⟨r, hr, hmem⟩ | ⟨r, hr, hmem⟩ := h.total hi hj
  · exact Note.locked.inj heq
  · exact absurd hmem (hr j)
  · exact absurd hmem (hr i)

theorem count_repointed (h : Orderly (Admissible servers) l) : l.count .repointed ≤ 1 := by
  refine h.countP_le_one fun r a ha hp b hb ↦ ?_
  obtain rfl : a = .repointed := eq_of_beq hp
  refine beq_eq_false_iff_ne.mpr fun hbeq ↦ ?_
  exact ha.1 (hbeq ▸ hb)

end

/-! ## The keys of a server -/

section

variable {line other : String} {keys : List String}

theorem mem_deployTo : other ∈ deployTo line keys ↔ other ∈ keys ∨ other = line := by
  unfold deployTo
  split
  · rename_i hmem
    constructor
    · exact .inl
    · rintro (h | rfl)
      · exact h
      · exact hmem
  · rw [List.mem_append, List.mem_singleton]

theorem mem_removeFrom : other ∈ removeFrom line keys ↔ other ∈ keys ∧ other ≠ line := by
  rw [removeFrom, List.mem_filter, decide_eq_true_eq]

end

/-! ## The invariant -/

structure Rotating where
  orgId : Id
  servers : List Id
  newKey : SshKey
  oldKey : SshKey
  ne : oldKey.line ≠ newKey.line

namespace Rotating

variable (r : Rotating)

def IsRow (row : Deployment) : Prop :=
  row.action = .rotate ∧ row.sshKeyId = r.newKey.id ∧ row.orgId = r.orgId

def IsMeta (batchMeta : BatchMeta) : Prop :=
  ∃ rotate, batchMeta.rotate = some rotate ∧ rotate.oldSshKeyId = r.oldKey.id

/-- What is so in every state. -/
structure Inv (s : Store) : Prop where
  orderly : Orderly (Admissible r.servers) s.log
  newKey : s.key r.orgId r.newKey.id = some r.newKey
  oldKey : s.key r.orgId r.oldKey.id = some r.oldKey
  kept : s.batchKept = true
  options : r.IsMeta s.batchMeta
  rows : ∀ row ∈ s.deployments, r.IsRow row
  servers : ∀ id, id ∈ r.servers ↔ ∃ row ∈ s.deployments, row.serverId = id
  success : ∀ row ∈ s.deployments, row.status = .success → .succeeded row.serverId ∈ s.log
  /-- A server whose deployment has succeeded accepts the new key. -/
  done : ∀ id, .succeeded id ∈ s.log → r.newKey.line ∈ s.authorizedKeys id
  access : ∀ id ∈ r.servers,
    r.oldKey.line ∈ s.authorizedKeys id ∨ r.newKey.line ∈ s.authorizedKeys id
  lock : ∀ i, .locked i ∈ s.log → s.repointLock = true
  holder : .repointed ∈ s.log → ∃ i, .locked i ∈ s.log

/-- Every deployment has succeeded. -/
def AllDone (s : Store) : Prop := ∀ id ∈ r.servers, .succeeded id ∈ s.log

def Assert (s : Store) (i : Nat) (id : Id) : Point → Prop
  | .markRunning row | .readServer row | .loadMeta row => r.IsRow row
  | .findKeys row batchMeta => r.IsRow row ∧ r.IsMeta batchMeta
  | .deploy row batchMeta newKey oldKey | .verify row batchMeta newKey oldKey =>
    r.IsRow row ∧ r.IsMeta batchMeta ∧ newKey = r.newKey ∧ oldKey = r.oldKey
  | .remove row batchMeta oldKey =>
    r.IsRow row ∧ r.IsMeta batchMeta ∧ oldKey = r.oldKey ∧ .verified id ∈ s.log ∧
      r.newKey.line ∈ s.authorizedKeys id
  | .single .. => False
  | .succeed row batchMeta =>
    r.IsRow row ∧ r.IsMeta batchMeta ∧ r.newKey.line ∈ s.authorizedKeys id
  | .readRows _ batchMeta => r.IsMeta batchMeta
  | .lock .. => r.AllDone s
  | .repoint .. => r.AllDone s ∧ .locked i ∈ s.log ∧ .repointed ∉ s.log
  | .readRow | .fail _ | .readRetry | .setPending => True

end Rotating

/-! ## What a step does -/

/-- What a step may do to the keys of the batch and its history. -/
structure Rotating.Grows (r : Rotating) (s s' : Store) : Prop where
  log : ∀ n ∈ s.log, n ∈ s'.log
  newKey : ∀ id, r.newKey.line ∈ s.authorizedKeys id → r.newKey.line ∈ s'.authorizedKeys id

section

variable {r : Rotating} {s s' : Store} {i j : Nat} {id : Id} {point point' : Point}
  {out : Outside} {k : Call}

theorem Rotating.Assert.mono (h : r.Assert s i id point) (hgrows : r.Grows s s')
    (hrepoint : .locked i ∈ s.log → .repointed ∉ s.log → .repointed ∉ s'.log) :
    r.Assert s' i id point := by
  have hdone : r.AllDone s → r.AllDone s' := fun h id hid ↦ hgrows.log _ (h id hid)
  cases point with
  | remove row batchMeta oldKey =>
    obtain ⟨hrow, hmeta, hold, hverified, hnew⟩ := h
    exact ⟨hrow, hmeta, hold, hgrows.log _ hverified, hgrows.newKey id hnew⟩
  | succeed row batchMeta => exact ⟨h.1, h.2.1, hgrows.newKey id h.2.2⟩
  | lock => exact hdone h
  | repoint =>
    obtain ⟨hall, hlocked, hnone⟩ := h
    exact ⟨hdone hall, hgrows.log _ hlocked, hrepoint hlocked hnone⟩
  | readRow | markRunning | readServer | loadMeta | findKeys | deploy | verify | single
  | fail | readRows | readRetry | setPending => exact h

theorem Rotating.newKey_setKeys {f : List String → List String}
    (hf : ∀ keys, r.newKey.line ∈ keys → r.newKey.line ∈ f keys) (target : Id)
    (h : r.newKey.line ∈ s.authorizedKeys id) :
    r.newKey.line ∈ (s.setKeys target f).authorizedKeys id := by
  by_cases hid : id = target
  · subst hid
    show _ ∈ Function.update s.authorizedKeys id (f (s.authorizedKeys id)) id
    rw [Function.update_self]
    exact hf _ h
  · show _ ∈ Function.update s.authorizedKeys target (f (s.authorizedKeys target)) id
    rw [Function.update_of_ne hid]
    exact h

theorem grows_deploy (line : String) : r.Grows s (s.setKeys id (deployTo line)) where
  log _ h := h
  newKey _ := Rotating.newKey_setKeys (fun _ h ↦ mem_deployTo.mpr (.inl h)) id

theorem grows_remove : r.Grows s (s.setKeys id (removeFrom r.oldKey.line)) where
  log _ h := h
  newKey _ := Rotating.newKey_setKeys (fun _ h ↦ mem_removeFrom.mpr ⟨h, r.ne.symm⟩) id

theorem grows_refl : r.Grows s s := ⟨fun _ h ↦ h, fun _ h ↦ h⟩

theorem Rotating.Grows.record {n : Note} (h : r.Grows s s') : r.Grows s (s'.record n) :=
  ⟨fun _ hn ↦ List.mem_cons_of_mem _ (h.log _ hn), h.newKey⟩

theorem grows_effect (ha : r.Assert s i k.serverId k.point) :
    r.Grows s (effect r.orgId s i out k) := by
  obtain ⟨id, point⟩ := k
  cases point with
  | deploy row batchMeta newKey oldKey =>
    simp only [effect]
    split
    · exact grows_deploy newKey.line
    · exact grows_refl
  | verify =>
    simp only [effect]
    split
    · exact grows_refl.record
    · exact grows_refl
  | remove row batchMeta oldKey =>
    obtain ⟨-, -, rfl, -⟩ := ha
    simp only [effect]
    split
    · exact grows_remove.record
    · exact grows_refl.record
  | single => exact ha.elim
  | succeed =>
    simp only [effect]
    split
    · exact Rotating.Grows.record ⟨fun _ h ↦ h, fun _ h ↦ h⟩
    · exact grows_refl
  | fail =>
    simp only [effect]
    split
    · exact ⟨fun _ h ↦ h, fun _ h ↦ h⟩
    · exact grows_refl
  | lock =>
    simp only [effect]
    split
    · exact Rotating.Grows.record ⟨fun _ h ↦ h, fun _ h ↦ h⟩
    · exact grows_refl
  | repoint =>
    simp only [effect]
    split
    · exact Rotating.Grows.record ⟨fun _ h ↦ h, fun _ h ↦ h⟩
    · exact grows_refl
  | readRow | markRunning | readServer | loadMeta | findKeys | readRows | readRetry
  | setPending => exact ⟨fun _ h ↦ h, fun _ h ↦ h⟩

theorem repointed_effect (h : r.Inv s) (ha : r.Assert s i k.serverId k.point) (hij : i ≠ j)
    (hlocked : .locked j ∈ s.log) (hnone : .repointed ∉ s.log) :
    .repointed ∉ (effect r.orgId s i out k).log := by
  have hcons : ∀ n : Note, n ≠ .repointed → .repointed ∉ n :: s.log := by
    intro n hn hmem
    obtain heq | hmem := List.mem_cons.mp hmem
    · exact hn heq.symm
    · exact hnone hmem
  obtain ⟨id, point⟩ := k
  cases point with
  | repoint => exact absurd (locked_unique h.orderly ha.2.1 hlocked) hij
  | single => exact ha.elim
  | remove =>
    simp only [effect]
    split
    · exact hcons _ (by intro hn; cases hn)
    · exact hcons _ (by intro hn; cases hn)
  | verify | succeed | lock =>
    simp only [effect]
    split
    · exact hcons _ (by intro hn; cases hn)
    · exact hnone
  | deploy | fail =>
    simp only [effect]
    split <;> exact hnone
  | readRow | markRunning | readServer | loadMeta | findKeys | readRows | readRetry
  | setPending => exact hnone

/-! ## What a step keeps -/

def Rotating.Says (r : Rotating) (s : Store) : Note → Prop
  | .succeeded id => r.newKey.line ∈ s.authorizedKeys id
  | .locked _ => s.repointLock = true
  | .repointed => ∃ i, .locked i ∈ s.log
  | .verified _ | .removed _ => True

theorem inv_record {n : Note} (h : r.Inv s) (hadm : Admissible r.servers s.log n)
    (hn : r.Says s n) : r.Inv (s.record n) where
  orderly := h.orderly.cons hadm
  newKey := h.newKey
  oldKey := h.oldKey
  kept := h.kept
  options := h.options
  rows := h.rows
  servers := h.servers
  success row hrow hs := List.mem_cons_of_mem _ (h.success row hrow hs)
  done id hid := by
    obtain rfl | hid := List.mem_cons.mp hid
    · exact hn
    · exact h.done id hid
  access := h.access
  lock i hi := by
    obtain rfl | hi := List.mem_cons.mp hi
    · exact hn
    · exact h.lock i hi
  holder hr := by
    obtain rfl | hr := List.mem_cons.mp hr
    · obtain ⟨i, hi⟩ := hn
      exact ⟨i, List.mem_cons_of_mem _ hi⟩
    · obtain ⟨i, hi⟩ := h.holder hr
      exact ⟨i, List.mem_cons_of_mem _ hi⟩

theorem mem_setStatus {status : Status} {row : Deployment} :
    row ∈ (s.setStatus id status).deployments ↔
      ∃ old ∈ s.deployments, (if old.serverId = id then { old with status } else old) = row :=
  List.mem_map

theorem inv_setStatus {status : Status} (h : r.Inv s)
    (hs : status = .success → .succeeded id ∈ s.log) : r.Inv (s.setStatus id status) where
  orderly := h.orderly
  newKey := h.newKey
  oldKey := h.oldKey
  kept := h.kept
  options := h.options
  rows row hrow := by
    obtain ⟨old, hold, rfl⟩ := mem_setStatus.mp hrow
    split
    · exact h.rows old hold
    · exact h.rows old hold
  servers id' := by
    rw [h.servers]
    constructor
    · rintro ⟨row, hrow, rfl⟩
      refine ⟨_, mem_setStatus.mpr ⟨row, hrow, rfl⟩, ?_⟩
      split <;> rfl
    · rintro ⟨row, hrow, rfl⟩
      obtain ⟨old, hold, rfl⟩ := mem_setStatus.mp hrow
      refine ⟨old, hold, ?_⟩
      split <;> rfl
  success row hrow hstatus := by
    obtain ⟨old, hold, rfl⟩ := mem_setStatus.mp hrow
    split at hstatus
    · rename_i hid
      rw [if_pos hid]
      exact hid ▸ hs hstatus
    · rename_i hid
      rw [if_neg hid]
      exact h.success old hold hstatus
  done := h.done
  access := h.access
  lock := h.lock
  holder := h.holder

theorem inv_setKeys {f : List String → List String} (h : r.Inv s)
    (hnew : ∀ keys, r.newKey.line ∈ keys → r.newKey.line ∈ f keys)
    (haccess : r.oldKey.line ∈ s.authorizedKeys id ∨ r.newKey.line ∈ s.authorizedKeys id →
      r.oldKey.line ∈ f (s.authorizedKeys id) ∨ r.newKey.line ∈ f (s.authorizedKeys id)) :
    r.Inv (s.setKeys id f) where
  orderly := h.orderly
  newKey := h.newKey
  oldKey := h.oldKey
  kept := h.kept
  options := h.options
  rows := h.rows
  servers := h.servers
  success := h.success
  done id' hid := Rotating.newKey_setKeys hnew id (h.done id' hid)
  access id' hid := by
    show r.oldKey.line ∈ Function.update s.authorizedKeys id (f (s.authorizedKeys id)) id' ∨
      r.newKey.line ∈ Function.update s.authorizedKeys id (f (s.authorizedKeys id)) id'
    by_cases heq : id' = id
    · subst heq
      rw [Function.update_self]
      exact haccess (h.access id' hid)
    · rw [Function.update_of_ne heq]
      exact h.access id' hid
  lock := h.lock
  holder := h.holder

theorem inv_deploy {line : String} (h : r.Inv s) : r.Inv (s.setKeys id (deployTo line)) := by
  refine inv_setKeys h (fun keys hmem ↦ mem_deployTo.mpr (.inl hmem)) ?_
  rintro (hold | hnew)
  · exact .inl (mem_deployTo.mpr (.inl hold))
  · exact .inr (mem_deployTo.mpr (.inl hnew))

theorem inv_remove (h : r.Inv s) (hnew : r.newKey.line ∈ s.authorizedKeys id) :
    r.Inv (s.setKeys id (removeFrom r.oldKey.line)) := by
  refine inv_setKeys h (fun keys hmem ↦ mem_removeFrom.mpr ⟨hmem, r.ne.symm⟩) fun _ ↦ .inr ?_
  exact mem_removeFrom.mpr ⟨hnew, r.ne.symm⟩

theorem inv_lock (h : r.Inv s) : r.Inv { s with repointLock := true } where
  orderly := h.orderly
  newKey := h.newKey
  oldKey := h.oldKey
  kept := h.kept
  options := h.options
  rows := h.rows
  servers := h.servers
  success := h.success
  done := h.done
  access := h.access
  lock _ _ := rfl
  holder := h.holder

theorem inv_repoint {orgId old new : Id} (h : r.Inv s) : r.Inv (s.repoint orgId old new) where
  orderly := h.orderly
  newKey := h.newKey
  oldKey := h.oldKey
  kept := h.kept
  options := h.options
  rows := h.rows
  servers := h.servers
  success := h.success
  done := h.done
  access := h.access
  lock := h.lock
  holder := h.holder

theorem inv_effect (h : r.Inv s) (ha : r.Assert s i k.serverId k.point) :
    r.Inv (effect r.orgId s i out k) := by
  obtain ⟨id, point⟩ := k
  cases point with
  | markRunning => exact inv_setStatus h (by intro hs; cases hs)
  | setPending => exact inv_setStatus h (by intro hs; cases hs)
  | deploy =>
    simp only [effect]
    split
    · exact inv_deploy h
    · exact h
  | verify =>
    simp only [effect]
    split
    · exact inv_record h trivial trivial
    · exact h
  | remove row batchMeta oldKey =>
    obtain ⟨-, -, rfl, hverified, hnew⟩ := ha
    simp only [effect]
    split
    · exact inv_record (inv_remove h hnew) hverified trivial
    · exact inv_record h hverified trivial
  | single => exact ha.elim
  | succeed row batchMeta =>
    simp only [effect]
    split
    · have hrecord := inv_record (n := .succeeded id) h trivial ha.2.2
      exact inv_setStatus hrecord fun _ ↦ List.mem_cons_self
    · exact h
  | fail =>
    simp only [effect]
    split
    · exact inv_setStatus h (by intro hs; cases hs)
    · exact h
  | lock =>
    simp only [effect]
    split
    · rename_i hfree
      refine inv_record (inv_lock h) (fun j hj ↦ ?_) rfl
      exact Bool.false_ne_true (hfree.2.symm.trans (h.lock j hj))
    · exact h
  | repoint row old new =>
    obtain ⟨hdone, hlocked, hnone⟩ := ha
    simp only [effect]
    split
    · exact inv_record (inv_repoint h) ⟨hnone, hdone⟩ ⟨i, hlocked⟩
    · exact h
  | readRow | readServer | loadMeta | findKeys | readRows | readRetry => exact h

theorem assert_next (h : r.Inv s) (ha : r.Assert s i k.serverId k.point)
    (hnext : next s out k = some point') :
    r.Assert (effect r.orgId s i out k) i k.serverId point' := by
  obtain ⟨id, point⟩ := k
  cases point with
  | readRow =>
    obtain ⟨row, hrow, hnext⟩ := Option.bind_eq_some_iff.mp hnext
    obtain ⟨-, hnext⟩ := Option.ite_none_left_eq_some.mp hnext
    obtain rfl := Option.some.inj hnext
    exact h.rows row (Keyed.mem_of_find hrow)
  | markRunning row =>
    obtain rfl := Option.some.inj hnext
    exact ha
  | readServer row =>
    simp only [next] at hnext
    split at hnext
    · obtain rfl := Option.some.inj hnext
      trivial
    · obtain rfl := Option.some.inj hnext
      split
      · exact ha
      · trivial
  | loadMeta row =>
    obtain rfl := Option.some.inj hnext
    have hmeta : s.loadMeta.getD { action := row.action } = s.batchMeta := by
      rw [Store.loadMeta, h.kept]
      rfl
    rw [if_pos ha.1, hmeta]
    exact ⟨ha, h.options⟩
  | findKeys row batchMeta =>
    obtain ⟨hrow, rotate, hrotate, hold⟩ := ha
    have hnew : s.key row.orgId row.sshKeyId = some r.newKey := by
      rw [hrow.2.1, hrow.2.2]
      exact h.newKey
    have hold' : s.key row.orgId rotate.oldSshKeyId = some r.oldKey := by
      rw [hold, hrow.2.2]
      exact h.oldKey
    simp only [next, hnew, hrotate, hold'] at hnext
    obtain rfl := Option.some.inj hnext
    exact ⟨hrow, ⟨rotate, hrotate, hold⟩, rfl, rfl⟩
  | deploy row batchMeta newKey oldKey =>
    obtain rfl := Option.some.inj hnext
    split
    · exact ha
    · trivial
  | verify row batchMeta newKey oldKey =>
    obtain ⟨hrow, hmeta, rfl, rfl⟩ := ha
    obtain rfl := Option.some.inj hnext
    split
    · rename_i hok
      simp only [effect, if_pos hok]
      exact ⟨hrow, hmeta, rfl, List.mem_cons_self, hok.2⟩
    · trivial
  | remove row batchMeta oldKey =>
    obtain ⟨hrow, hmeta, hold, hverified, hnew⟩ := ha
    obtain rfl := Option.some.inj hnext
    split
    · refine ⟨hrow, hmeta, (grows_effect (k := ⟨id, .remove row batchMeta oldKey⟩) ?_).newKey id hnew⟩
      exact ⟨hrow, hmeta, hold, hverified, hnew⟩
    · trivial
  | single => exact ha.elim
  | succeed row batchMeta =>
    obtain ⟨-, hnext⟩ := Option.ite_none_right_eq_some.mp hnext
    obtain rfl := Option.some.inj hnext
    exact ha.2.1
  | fail => cases hnext
  | readRows row batchMeta =>
    simp only [next] at hnext
    split at hnext
    · obtain rfl := Option.some.inj hnext
      trivial
    · split at hnext
      · rename_i hall
        split at hnext
        · obtain rfl := Option.some.inj hnext
          intro id' hid
          obtain ⟨row', hrow', rfl⟩ := (h.servers id').mp hid
          exact h.success row' hrow' (of_decide_eq_true (List.all_eq_true.mp hall row' hrow'))
        · cases hnext
      · cases hnext
  | lock row old new =>
    simp only [next] at hnext
    split at hnext
    · obtain rfl := Option.some.inj hnext
      trivial
    · rename_i hok
      split at hnext
      · cases hnext
      · rename_i hfree
        obtain rfl := Option.some.inj hnext
        have hfree : out.ok = true ∧ s.repointLock = false :=
          ⟨Bool.of_not_eq_false hok, Bool.of_not_eq_true hfree⟩
        simp only [effect, if_pos hfree]
        refine ⟨fun id' hid ↦ List.mem_cons_of_mem _ (ha id' hid), List.mem_cons_self, ?_⟩
        intro hmem
        obtain heq | hmem := List.mem_cons.mp hmem
        · cases heq
        · obtain ⟨j, hj⟩ := h.holder hmem
          exact Bool.false_ne_true (hfree.2.symm.trans (h.lock j hj))
  | repoint row old new =>
    obtain ⟨-, hnext⟩ := Option.ite_none_left_eq_some.mp hnext
    obtain rfl := Option.some.inj hnext
    trivial
  | readRetry =>
    obtain ⟨row, -, hnext⟩ := Option.bind_eq_some_iff.mp hnext
    obtain ⟨-, hnext⟩ := Option.ite_none_left_eq_some.mp hnext
    obtain rfl := Option.some.inj hnext
    trivial
  | setPending => cases hnext

theorem inv_change {c : Change} (h : r.Inv s) (hc : change s c = some s')
    (hmeta : c ≠ .expireMeta) (hlock : c ≠ .expireLock) : r.Inv s' ∧ r.Grows s s' ∧ s'.log = s.log := by
  cases c with
  | expireMeta => exact absurd rfl hmeta
  | expireLock => exact absurd rfl hlock
  | reap ids =>
    obtain rfl := Option.some.inj hc
    refine ⟨?_, ⟨fun _ h ↦ h, fun _ h ↦ h⟩, rfl⟩
    exact
      { orderly := h.orderly
        newKey := h.newKey
        oldKey := h.oldKey
        kept := h.kept
        options := h.options
        rows := by
          intro row hrow
          obtain ⟨old, hold, rfl⟩ := List.mem_map.mp hrow
          split
          · exact h.rows old hold
          · exact h.rows old hold
        servers := by
          intro id'
          rw [h.servers]
          constructor
          · rintro ⟨row, hrow, rfl⟩
            refine ⟨_, List.mem_map.mpr ⟨row, hrow, rfl⟩, ?_⟩
            split <;> rfl
          · rintro ⟨row, hrow, rfl⟩
            obtain ⟨old, hold, rfl⟩ := List.mem_map.mp hrow
            refine ⟨old, hold, ?_⟩
            split <;> rfl
        success := by
          intro row hrow hstatus
          obtain ⟨old, hold, rfl⟩ := List.mem_map.mp hrow
          split at hstatus
          · cases hstatus
          · rename_i hid
            rw [if_neg hid]
            exact h.success old hold hstatus
        done := h.done
        access := h.access
        lock := h.lock
        holder := h.holder }

end

/-! ## Every run -/

/-- What does not let the options or the lock of the batch expire. -/
def Change.keeps : Change → Bool
  | .reap _ => true
  | .expireMeta | .expireLock => false

theorem program_keeps (r : Rotating) :
    ((program r.orgId).inEnv Change.keeps).Keeps Kept r.Inv
      fun s i k ↦ r.Assert s i k.serverId k.point where
  spawn s i a _ := by
    obtain ⟨id, op⟩ := a
    cases op <;> trivial
  act p i k out s' k' hp hk hact _ := by
    obtain ⟨rfl, rfl⟩ := Prod.mk.inj (Option.some.inj hact)
    have ha := hp.2 i k hk
    refine ⟨inv_effect hp.1 ha, ?_, ?_⟩
    · intro l hl
      obtain ⟨point', hnext, rfl⟩ := Option.map_eq_some_iff.mp hl
      exact assert_next hp.1 ha hnext
    · intro j l hji hl
      exact (hp.2 j l hl).mono (grows_effect ha)
        (repointed_effect hp.1 ha (Ne.symm hji))
  abort p i k hp _ := ⟨hp.1, fun j l _ hl ↦ hp.2 j l hl⟩
  env s c s' h hc := by
    obtain ⟨hkeeps, hc⟩ := Option.ite_none_right_eq_some.mp hc
    obtain ⟨hinv, hgrows, hlog⟩ := inv_change h hc (by rintro rfl; cases hkeeps)
      (by rintro rfl; cases hkeeps)
    refine ⟨hinv, fun j l hl ↦ hl.mono hgrows fun _ hnone ↦ ?_⟩
    rwa [hlog]

def Store.begin (d : Database) (batch : Batch) (authorizedKeys : Id → List String) : Store :=
  { d, batch with authorizedKeys }

section

variable {d : Database} {batchId : String} {params : Params} {scope : Scope} {batch : Batch}
  {opts : RotateOpts} {r : Rotating} {authorizedKeys : Id → List String}
  {p : Pool Store Call} {es : List (Event (Id × Operation) Outside Change)}

theorem createBatch_ok {orgId : Id} (h : createBatch d orgId batchId params scope = .ok batch)
    (haction : params.action = .rotate) (hopts : params.rotate = some opts) :
    batch.batchMeta.rotate = some opts ∧
      (∃ credential, batch.deployments = deploymentRows d orgId batchId params credential) ∧
      ∀ id ∈ params.serverIds, ((d.batchServers orgId params.serverIds).find id).isSome = true := by
  unfold createBatch at h
  rw [haction, hopts] at h
  simp only [bind_eq_ok, require_eq_ok, demand_eq_ok, pure_eq_ok, if_true,
    Option.filter_eq_some_iff, Option.some.injEq] at h
  obtain ⟨-, -, -, -, -, -, rotate, ⟨a, ⟨rfl, -⟩, -, -, rfl⟩, credential, -, -, hfound, -, -, rfl⟩ := h
  exact ⟨rfl, ⟨credential, rfl⟩, hfound⟩

theorem key_of_orgKey {orgId id : Id} {key : SshKey} (h : d.orgKey orgId id = some key) :
    key.id = id ∧ (d.sshKeys.find key.id).filter (fun k ↦ k.orgId = orgId) = some key := by
  obtain ⟨hfind, hkey⟩ := Option.filter_eq_some_iff.mp h
  obtain rfl := Keyed.key_of_find hfind
  exact ⟨rfl, Option.filter_eq_some_iff.mpr ⟨hfind, decide_eq_true (of_decide_eq_true hkey).1⟩⟩

/-- A batch that begins satisfies the invariant, if its servers accept one of the keys. -/
theorem inv_begin (h : createBatch d r.orgId batchId params scope = .ok batch)
    (haction : params.action = .rotate) (hopts : params.rotate = some opts)
    (hnew : d.orgKey r.orgId params.sshKeyId = some r.newKey)
    (hold : d.orgKey r.orgId opts.oldSshKeyId = some r.oldKey)
    (hservers : r.servers = params.serverIds)
    (haccess : ∀ id ∈ params.serverIds,
      r.oldKey.line ∈ authorizedKeys id ∨ r.newKey.line ∈ authorizedKeys id) :
    r.Inv (.begin d batch authorizedKeys) := by
  obtain ⟨hmeta, ⟨credential, hrows⟩, hfound⟩ := createBatch_ok h haction hopts
  obtain ⟨hnewId, hnewKey⟩ := key_of_orgKey hnew
  obtain ⟨holdId, holdKey⟩ := key_of_orgKey hold
  have hmem : ∀ row, row ∈ batch.deployments ↔ ∃ server ∈ d.batchServers r.orgId params.serverIds,
      deploymentRow d r.orgId batchId params credential server = row := by
    intro row
    rw [hrows]
    exact List.mem_map
  exact
    { orderly := .nil
      newKey := hnewKey
      oldKey := holdKey
      kept := rfl
      options := ⟨opts, hmeta, holdId.symm⟩
      rows := by
        intro row hrow
        obtain ⟨server, -, rfl⟩ := (hmem row).mp hrow
        exact ⟨haction, hnewId.symm, rfl⟩
      servers := by
        intro id
        rw [hservers]
        constructor
        · intro hid
          obtain ⟨server, hfind⟩ := Option.isSome_iff_exists.mp (hfound id hid)
          obtain ⟨hserver, hserverId⟩ := Keyed.find_eq_some.mp hfind
          exact ⟨_, (hmem _).mpr ⟨server, hserver, rfl⟩, hserverId⟩
        · rintro ⟨row, hrow, rfl⟩
          obtain ⟨server, hserver, rfl⟩ := (hmem row).mp hrow
          exact (of_decide_eq_true (Keyed.mem_filter.mp hserver).2).1
      success := by
        intro row hrow hstatus
        obtain ⟨server, -, rfl⟩ := (hmem row).mp hrow
        cases hstatus
      done := fun _ hid ↦ absurd hid List.not_mem_nil
      access := fun id hid ↦ haccess id (hservers ▸ hid)
      lock := fun _ hi ↦ absurd hi List.not_mem_nil
      holder := fun hr ↦ absurd hr List.not_mem_nil }

/-- **Every server of a rotation accepts one of its keys**, in every run within the life of the
batch; the old key is removed after a login with the new one, and the identities are repointed
once, when every server accepts the new key. -/
theorem run_noLockout {orgId : Id} {newKey oldKey : SshKey}
    (hcreate : createBatch d orgId batchId params scope = .ok batch)
    (haction : params.action = .rotate) (hopts : params.rotate = some opts)
    (hnew : d.orgKey orgId params.sshKeyId = some newKey)
    (hold : d.orgKey orgId opts.oldSshKeyId = some oldKey) (hne : oldKey.line ≠ newKey.line)
    (haccess : ∀ id ∈ params.serverIds,
      oldKey.line ∈ authorizedKeys id ∨ newKey.line ∈ authorizedKeys id)
    (hr : Run (program orgId).step Kept (Program.idle Call (.begin d batch authorizedKeys)) es p) :
    (∀ id ∈ params.serverIds,
      oldKey.line ∈ p.store.authorizedKeys id ∨ newKey.line ∈ p.store.authorizedKeys id) ∧
      (∀ id l, .removed id :: l <:+ p.store.log → .verified id ∈ l) ∧
      p.store.log.count .repointed ≤ 1 ∧
      (∀ l, .repointed :: l <:+ p.store.log → ∀ id ∈ params.serverIds, .succeeded id ∈ l) ∧
      (.repointed ∈ p.store.log → ∀ id ∈ params.serverIds,
        newKey.line ∈ p.store.authorizedKeys id) := by
  let r : Rotating := ⟨orgId, params.serverIds, newKey, oldKey, hne⟩
  have hbegin : r.Inv (.begin d batch authorizedKeys) :=
    inv_begin hcreate haction hopts hnew hold rfl haccess
  have hrun : Run ((program orgId).inEnv Change.keeps).step Kept
      (Program.idle Call (.begin d batch authorizedKeys)) es p :=
    Program.run_inEnv (fun _ c _ hkept ↦ by cases c <;> first | rfl | exact hkept) hr
  have hinv : r.Inv p.store := ((program_keeps r).run (Program.holds_idle hbegin) hrun).1
  refine ⟨hinv.access, fun id l hs ↦ hinv.orderly.admissible hs, count_repointed hinv.orderly,
    fun l hs ↦ (hinv.orderly.admissible hs).2, ?_⟩
  intro hrepointed id hid
  obtain ⟨l, hs⟩ : ∃ l, .repointed :: l <:+ p.store.log := by
    obtain ⟨front, l, hl⟩ := List.append_of_mem hrepointed
    exact ⟨l, front, hl.symm⟩
  exact hinv.done id (hs.subset (List.mem_cons_of_mem _ ((hinv.orderly.admissible hs).2 id hid)))

end

/-! ## Examples -/

def fleetOld : SshKey where
  id := "old"
  orgId := "o1"
  publicKey := "ssh-ed25519 AAAA"

def fleetNew : SshKey where
  id := "new"
  orgId := "o1"
  publicKey := "ssh-ed25519 BBBB"

def fleet : Database where
  sshKeys := ⟨[fleetOld, fleetNew], by decide⟩
  credentials := ⟨[{ id := "c1", orgId := "o1", sshKeyId := some "old" }], by decide⟩
  servers := ⟨[
    { id := "a", orgId := "o1", customerId := "k", authMode := .credential, credentialId := some "c1" },
    { id := "b", orgId := "o1", customerId := "k", authMode := .credential, credentialId := some "c1" }],
    by decide⟩

def rotateFleet : Params where
  sshKeyId := "new"
  serverIds := ["a", "b"]
  action := .rotate
  rotate := some { oldSshKeyId := "old", updateCredentials := true }

def fleetBatch : Batch where
  deployments := deploymentRows fleet "o1" "b1" rotateFleet none
  batchMeta :=
    { action := .rotate, rotate := some { oldSshKeyId := "old", updateCredentials := true } }

def oldEverywhere (_ : Id) : List String := ["ssh-ed25519 AAAA"]

theorem createBatch_fleet : createBatch fleet "o1" "b1" rotateFleet .unscoped = .ok fleetBatch :=
  rfl

def works (i : Nat) : List (Event (Id × Operation) Outside Change) := List.replicate 9 (.act i {})

def bothSucceed : List (Event (Id × Operation) Outside Change) :=
  [.spawn 0 ("a", .processDeployment), .spawn 1 ("b", .processDeployment)] ++ works 0 ++
    works 1 ++ List.replicate 3 (.act 1 {})

theorem run_noLockout_fleet : ∃ p : Pool Store Call,
    ((∀ id ∈ rotateFleet.serverIds, fleetOld.line ∈ p.store.authorizedKeys id ∨
      fleetNew.line ∈ p.store.authorizedKeys id) ∧
      (∀ id l, .removed id :: l <:+ p.store.log → .verified id ∈ l) ∧
      p.store.log.count .repointed ≤ 1 ∧
      (∀ l, .repointed :: l <:+ p.store.log → ∀ id ∈ rotateFleet.serverIds, .succeeded id ∈ l) ∧
      (.repointed ∈ p.store.log → ∀ id ∈ rotateFleet.serverIds,
        fleetNew.line ∈ p.store.authorizedKeys id)) ∧
      p.store.log.head? = some .repointed := by
  have h : ∃ p : Pool Store Call, execIf (program "o1").step (fun _ e ↦ isKept e)
      (Program.idle Call (.begin fleet fleetBatch oldEverywhere)) bothSucceed = some p ∧
      p.store.log.head? = some .repointed := ⟨_, rfl, rfl⟩
  obtain ⟨p, hp, hlog⟩ := h
  have hnew : fleet.orgKey "o1" rotateFleet.sshKeyId = some fleetNew := rfl
  have hold : fleet.orgKey "o1" "old" = some fleetOld := rfl
  have hopts : rotateFleet.rotate = some ⟨"old", true⟩ := rfl
  refine ⟨p, ?_, hlog⟩
  exact run_noLockout createBatch_fleet rfl hopts hnew hold (by decide) (by decide)
    (run_of_execIf hp)

def AcceptsIdentity (s : Store) (server : Server) : Prop :=
  ∃ c ∈ server.credentialId.bind s.credentials.find, ∃ k ∈ c.sshKeyId.bind s.sshKeys.find,
    k.line ∈ s.authorizedKeys server.id

instance (s : Store) (server : Server) : Decidable (AcceptsIdentity s server) :=
  inferInstanceAs (Decidable (∃ c ∈ server.credentialId.bind s.credentials.find,
    ∃ k ∈ c.sshKeyId.bind s.sshKeys.find, k.line ∈ s.authorizedKeys server.id))

def oneFails : List (Event (Id × Operation) Outside Change) :=
  [.spawn 0 ("a", .processDeployment), .spawn 1 ("b", .processDeployment)] ++ works 0 ++
    List.replicate 5 (.act 1 {}) ++ [.act 1 { ok := false }, .act 1 {}, .act 0 {}]

/-- A server that the rotation has reached does not accept the key of its identity while the
others are not done. -/
theorem half_rotated : ∃ p : Pool Store Call,
    Run (program "o1").step free (Program.idle Call (.begin fleet fleetBatch oldEverywhere))
      oneFails p ∧
      (∀ server ∈ fleet.servers.rows,
        AcceptsIdentity (.begin fleet fleetBatch oldEverywhere) server) ∧
      ¬ ∀ server ∈ fleet.servers.rows, AcceptsIdentity p.store server := by
  have h : exec (program "o1").step (Program.idle Call (.begin fleet fleetBatch oldEverywhere))
      oneFails = some _ := rfl
  exact ⟨_, run_of_exec h, by decide, by decide⟩

end Shellius.Rotation
