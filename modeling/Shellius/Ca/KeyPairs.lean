import Shellius.Lib.Table
import Shellius.Schema

/-!
# The key pairs of the certificate authority

The rows of `caService` and what its functions do to them in one command to the
database: `generateCaKeyPair` switches the active keys off and then adds one,
`rotateCaKeyPair` does both in one transaction, `signCertificate` reads the
active key and hands it to `ssh-keygen`.
-/

namespace Shellius

open Lib

structure CaKeyPair where
  id : Id
  orgId : Id
  name : String
  algorithm : String := "Ed25519"
  publicKey : String
  encryptedPrivateKey : String
  fingerprint : String
  isActive : Bool := true
  rotatedAt : Option Millis := none

/-- A key pair fresh from `ssh-keygen`, its private half encrypted already. -/
structure KeyMaterial where
  publicKey : String
  encryptedPrivateKey : String
  fingerprint : String

/-- `data` of the two `caKeyPair.create` calls. -/
def newKeyPair (id orgId : Id) (name : String) (m : KeyMaterial) : CaKeyPair where
  id := id
  orgId := orgId
  name := name
  publicKey := m.publicKey
  encryptedPrivateKey := m.encryptedPrivateKey
  fingerprint := m.fingerprint

/-- `where: { orgId, isActive: true }` -/
def isActiveKeyOf (orgId : Id) (k : CaKeyPair) : Bool := k.orgId = orgId ∧ k.isActive

/-- `findFirst({ where: { orgId, isActive: true } })` -/
def activeKey (keys : List CaKeyPair) (orgId : Id) : Option CaKeyPair :=
  keys.find? (isActiveKeyOf orgId)

def activeKeys (keys : List CaKeyPair) (orgId : Id) : List Id :=
  (keys.filter (isActiveKeyOf orgId)).map CaKeyPair.id

/-- The `updateMany` of `generateCaKeyPair`. -/
def deactivateAll (orgId : Id) (keys : List CaKeyPair) : List CaKeyPair :=
  keys.map fun k ↦ if isActiveKeyOf orgId k then { k with isActive := false } else k

/-- The `update` of `rotateCaKeyPair`. -/
def retire (id : Id) (now : Millis) (keys : List CaKeyPair) : List CaKeyPair :=
  Lib.modify CaKeyPair.id id (fun k ↦ { k with isActive := false, rotatedAt := some now }) keys

/-- Neither the primary key nor the fingerprint of a new row is taken. -/
def isFreeKey (keys : List CaKeyPair) (id : Id) (m : KeyMaterial) : Bool :=
  keys.all fun k ↦ k.id ≠ id ∧ k.fingerprint ≠ m.fingerprint

section

variable {keys : List CaKeyPair} {orgId : Id} {k : CaKeyPair}

theorem activeKeys_append (keys' : List CaKeyPair) :
    activeKeys (keys ++ keys') orgId = activeKeys keys orgId ++ activeKeys keys' orgId := by
  simp [activeKeys]

theorem activeKeys_newKeyPair (id : Id) (o : Id) (name : String) (m : KeyMaterial) :
    activeKeys [newKeyPair id o name m] orgId = if o = orgId then [id] else [] := by
  by_cases h : o = orgId <;> simp [activeKeys, isActiveKeyOf, newKeyPair, h]

theorem activeKeys_deactivateAll_self : activeKeys (deactivateAll orgId keys) orgId = [] := by
  simp only [activeKeys, deactivateAll, List.map_eq_nil_iff, List.filter_eq_nil_iff, List.mem_map]
  rintro _ ⟨k, -, rfl⟩
  split
  · simp [isActiveKeyOf]
  · assumption

theorem activeKeys_deactivateAll_of_ne {o : Id} (h : o ≠ orgId) :
    activeKeys (deactivateAll o keys) orgId = activeKeys keys orgId := by
  refine map_filter_map (fun k ↦ ?_) (fun k ↦ ?_) keys
  · split
    · rename_i hk
      simp only [isActiveKeyOf, decide_eq_true_eq] at hk
      simp [isActiveKeyOf, hk.1, h]
    · rfl
  · split <;> rfl

theorem activeKeys_retire (id : Id) (now : Millis) :
    activeKeys (retire id now keys) orgId = (activeKeys keys orgId).filter fun j ↦ j ≠ id := by
  have hfilter : (activeKeys keys orgId).filter (fun j ↦ j ≠ id) =
      (keys.filter fun k ↦ decide (k.id ≠ id) && isActiveKeyOf orgId k).map CaKeyPair.id := by
    rw [activeKeys, List.filter_map, List.filter_filter]
    rfl
  rw [hfilter]
  refine map_filter_map (fun k ↦ ?_) (fun k ↦ ?_) keys
  · split <;> simp [isActiveKeyOf, *]
  · split <;> rfl

/-- The id and the organization of every row. -/
def rowKeys (keys : List CaKeyPair) : List (Id × Id) := keys.map fun k ↦ (k.id, k.orgId)

theorem map_fst_rowKeys : (rowKeys keys).map Prod.fst = keys.map CaKeyPair.id := by
  simp [rowKeys]

theorem mem_rowKeys {id : Id} :
    (id, orgId) ∈ rowKeys keys ↔ ∃ k ∈ keys, k.id = id ∧ k.orgId = orgId := by
  simp [rowKeys]

theorem exists_mem_rowKeys :
    (∃ id, (id, orgId) ∈ rowKeys keys) ↔ ∃ k ∈ keys, k.orgId = orgId := by
  simp [rowKeys]

@[simp] theorem rowKeys_append (keys' : List CaKeyPair) :
    rowKeys (keys ++ keys') = rowKeys keys ++ rowKeys keys' := List.map_append

@[simp] theorem rowKeys_newKeyPair (id o : Id) (name : String) (m : KeyMaterial) :
    rowKeys [newKeyPair id o name m] = [(id, o)] := rfl

@[simp] theorem rowKeys_deactivateAll (o : Id) : rowKeys (deactivateAll o keys) = rowKeys keys := by
  rw [rowKeys, deactivateAll, List.map_map]
  refine List.map_congr_left fun k _ ↦ ?_
  simp only [Function.comp_apply]
  split <;> rfl

@[simp] theorem rowKeys_retire (id : Id) (now : Millis) :
    rowKeys (retire id now keys) = rowKeys keys := map_modify fun _ _ _ ↦ rfl

theorem fresh_of_isFreeKey {id : Id} {m : KeyMaterial} (h : isFreeKey keys id m = true) :
    id ∉ keys.map CaKeyPair.id := by
  intro hmem
  obtain ⟨k, hk, hid⟩ := List.mem_map.mp hmem
  exact (of_decide_eq_true (List.all_eq_true.mp h k hk)).1 hid

theorem activeKey_spec (h : activeKey keys orgId = some k) :
    k ∈ keys ∧ k.orgId = orgId ∧ k.isActive = true := by
  have hp := List.find?_some h
  simp only [isActiveKeyOf, decide_eq_true_eq] at hp
  exact ⟨List.mem_of_find?_eq_some h, hp⟩

theorem exists_of_mem_activeKeys {id : Id} (h : id ∈ activeKeys keys orgId) :
    ∃ k ∈ keys, k.orgId = orgId ∧ k.isActive = true ∧ k.id = id := by
  obtain ⟨k, hk, rfl⟩ := List.mem_map.mp h
  obtain ⟨hk, hp⟩ := List.mem_filter.mp hk
  simp only [isActiveKeyOf, decide_eq_true_eq] at hp
  exact ⟨k, hk, hp.1, hp.2, rfl⟩

end

/-! ## Signing -/

inductive CertType where
  | user | host
deriving DecidableEq

/-- The parameters of `signCertificate`.  The value of an extension is a string,
or `true` (`none`). -/
structure SignParams where
  orgId : Id
  publicKey : String
  principals : List String
  validitySeconds : Int
  certType : CertType := .user
  keyId : String
  extensions : List (String × Option String) := []
  criticalOptions : List (String × String) := []

/-- The checks at the top of `signCertificate`. -/
def checkSign (params : SignParams) : Except ApiError Unit :=
  if params.orgId = "" then .error ⟨400, "orgId is required", none⟩
  else if params.publicKey = "" then .error ⟨400, "publicKey is required", none⟩
  else if params.principals = [] then
    .error ⟨400, "principals must be a non-empty array", none⟩
  else if params.validitySeconds ≤ 0 then
    .error ⟨400, "validitySeconds must be a positive number", none⟩
  else if params.keyId = "" then .error ⟨400, "keyId is required", none⟩
  else .ok ()

/-- `STANDARD_PERMITS` -/
def standardPermits : List String :=
  ["permit-pty", "permit-port-forwarding", "permit-agent-forwarding", "permit-X11-forwarding",
    "permit-user-rc"]

/-- One extension as a `-O` option. -/
def extensionOption : String × Option String → String
  | (name, value) =>
    if name ∈ standardPermits then name
    else match truthy' value with
      | none => "extension=" ++ name
      | some v => "extension=" ++ name ++ "=" ++ v
where
  /-- A value that is neither empty nor `true`. -/
  truthy' : Option String → Option String
    | some v => if v = "" then none else some v
    | none => none

/-- The command line `ssh-keygen` is given, and with it what it signs. -/
structure KeygenArgs where
  /-- `-s`: the row whose private key is written to the key file. -/
  caKey : CaKeyPair
  /-- `-I` -/
  identity : String
  /-- `-n` -/
  principals : String
  /-- `-V`, in seconds from now. -/
  validity : Int
  /-- `-z` -/
  serial : Nat
  /-- `-h` -/
  host : Bool
  /-- `-O` -/
  options : List String
  publicKey : String

/-- The arguments `signCertificate` builds. -/
def keygenArgs (params : SignParams) (caKey : CaKeyPair) (serial : Nat) : KeygenArgs where
  caKey := caKey
  identity := params.keyId
  principals := ",".intercalate params.principals
  validity := params.validitySeconds
  serial := serial
  host := params.certType = .host
  options :=
    (if params.extensions.any fun e ↦ e.1 ∈ standardPermits then ["clear"] else []) ++
      params.extensions.map extensionOption ++
      params.criticalOptions.map fun o ↦ "critical:" ++ o.1 ++ "=" ++ o.2
  publicKey := params.publicKey

end Shellius
