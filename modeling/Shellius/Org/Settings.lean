import Mathlib.Data.List.Forall2
import Mathlib.Data.List.Induction
import Mathlib.Data.List.Perm.Basic
import Shellius.Lib.Pool
import Shellius.Lib.Serial
import Shellius.Permissions

/-!
# The settings of an organization

`orgService.setChatApprovalsAllowProd` and `updateAccessSettings`, with the
`updateSsoRequired` it begins with, each database step on its own.  The settings
are one JSON column.  Each switch is set by reading the column, changing the copy
and writing it back whole, and `updateAccessSettings` does so for up to three
switches, one after the other.

What a call that is left alone does is to carry out its edits (`Operation.edits`).
A run is disturbed when a write overwrites what it has not read, when a call
writes a switch although another call that wrote the same switch has already come
after it, or when a call dies half-way.
-/

namespace Shellius.OrgSettings

open Lib

/-! ## JSON -/

inductive Json
  | null
  | bool (b : Bool)
  | num (literal : String)
  | str (s : String)
  | arr (elements : List Json)
  | obj (fields : String → Option Json)

/-- What `{ ...x }` spreads, and nothing if `x` is no object. -/
def fieldsOf : Json → String → Option Json
  | .obj fields => fields
  | .arr elements => fun k ↦
      ((List.range elements.length).find? fun i ↦ toString i = k).bind fun i ↦ elements[i]?
  | _ => fun _ ↦ none

def part (settings : Json) (name : String) : String → Option Json :=
  match fieldsOf settings name with
  | some x => fieldsOf x
  | none => fun _ ↦ none

def putPart (name : String) (change : (String → Option Json) → String → Option Json)
    (settings : Json) : Json :=
  .obj (Function.update (fieldsOf settings) name (some (.obj (change (part settings name)))))

def setField (k : String) (x : Json) (fields : String → Option Json) : String → Option Json :=
  Function.update fields k (some x)

def dropField (k : String) (fields : String → Option Json) : String → Option Json :=
  Function.update fields k none

/-! ## The switches -/

inductive Switch
  | chatApprovalsAllowProd | ssoRequired | personalVaultEnabled | prodBypassEnabled
deriving DecidableEq

/-- `x === true` -/
def isTrue : Option Json → Bool
  | some (.bool b) => b
  | _ => false

/-- `x === false` -/
def isFalse : Option Json → Bool
  | some (.bool b) => !b
  | _ => false

/-- `x === 'none'` -/
def isNone : Option Json → Bool
  | some (.str s) => s = "none"
  | _ => false

def Switch.partName : Switch → String
  | .chatApprovalsAllowProd => "notifications"
  | .personalVaultEnabled => "vault"
  | .ssoRequired | .prodBypassEnabled => "access"

/-- How a switch is read from its part: `chatApprovalsAllowProd`, `ssoRequiredFromSettings`,
`vaultEnabledFromSettings` and `isProdBypassEnabled`. -/
def Switch.readPart (fields : String → Option Json) : Switch → Bool
  | .chatApprovalsAllowProd => isTrue (fields "chatApprovalsAllowProd")
  | .ssoRequired => isTrue (fields "ssoRequired")
  | .personalVaultEnabled => !isFalse (fields "enabled")
  | .prodBypassEnabled =>
    match fields "prodBypassEnabled" with
    | some (.bool b) => b
    | _ => !isNone (fields "prodApprovalBypassMinRole")

def Switch.read (settings : Json) (w : Switch) : Bool := w.readPart (part settings w.partName)

def Switch.write (value : Bool) : Switch → (String → Option Json) → String → Option Json
  | .chatApprovalsAllowProd => setField "chatApprovalsAllowProd" (.bool value)
  | .ssoRequired => setField "ssoRequired" (.bool value)
  | .personalVaultEnabled => setField "enabled" (.bool value)
  | .prodBypassEnabled => fun access ↦
      setField "prodBypassEnabled" (.bool value) (dropField "prodApprovalBypassMinRole" access)

/-- A switch and the value it is set to. -/
structure Edit where
  switch : Switch
  value : Bool

def Edit.apply (e : Edit) : Json → Json := putPart e.switch.partName (e.switch.write e.value)

/-! ### Changing two parts, or one part twice -/

section

variable {settings : Json} {name name' k k' : String} {x x' : Json}
  {fields : String → Option Json} {f g : (String → Option Json) → String → Option Json}

@[simp] theorem fieldsOf_obj : fieldsOf (.obj fields) = fields := rfl

@[simp] theorem part_putPart_self : part (putPart name f settings) name = f (part settings name) := by
  simp [part, putPart]

theorem part_putPart_of_ne (h : name' ≠ name) :
    part (putPart name f settings) name' = part settings name' := by
  simp [part, putPart, h]

theorem putPart_comm (h : name ≠ name') :
    putPart name f (putPart name' g settings) = putPart name' g (putPart name f settings) := by
  have hpart : part (putPart name' g settings) name = part settings name := part_putPart_of_ne h
  have hpart' : part (putPart name f settings) name' = part settings name' :=
    part_putPart_of_ne h.symm
  rw [putPart, hpart, putPart, putPart, hpart', putPart, fieldsOf_obj, fieldsOf_obj,
    Function.update_comm h]

theorem putPart_putPart :
    putPart name f (putPart name g settings) = putPart name (fun fs ↦ f (g fs)) settings := by
  rw [putPart, part_putPart_self, putPart, fieldsOf_obj, Function.update_idem, putPart]

@[simp] theorem setField_self : setField k x fields k = some x := by simp [setField]

theorem setField_of_ne (h : k' ≠ k) : setField k x fields k' = fields k' := by
  simp [setField, h]

theorem dropField_of_ne (h : k' ≠ k) : dropField k fields k' = fields k' := by
  simp [dropField, h]

theorem setField_comm (h : k ≠ k') :
    setField k x (setField k' x' fields) = setField k' x' (setField k x fields) :=
  (Function.update_comm h _ _ _).symm

theorem setField_dropField_comm (h : k ≠ k') :
    setField k x (dropField k' fields) = dropField k' (setField k x fields) :=
  (Function.update_comm h _ _ _).symm

/-! ### Setting two switches, or one switch twice -/

variable {e e' : Edit} {w w' : Switch} {v v' : Bool}

/-- The only switches that share a part are `ssoRequired` and `prodBypassEnabled`. -/
theorem Switch.write_comm (h : w ≠ w') (hp : w.partName = w'.partName) :
    w.write v (w'.write v' fields) = w'.write v' (w.write v fields) := by
  have haccess : ∀ v v', Switch.ssoRequired.write v (Switch.prodBypassEnabled.write v' fields) =
      Switch.prodBypassEnabled.write v' (Switch.ssoRequired.write v fields) := by
    intro v v'
    rw [Switch.write, Switch.write, setField_comm (by decide), setField_dropField_comm (by decide)]
  cases w <;> cases w' <;> first
    | exact absurd rfl h
    | exact absurd hp (by decide)
    | exact haccess _ _
    | exact (haccess _ _).symm

theorem Edit.apply_comm (h : e.switch ≠ e'.switch) :
    e.apply (e'.apply settings) = e'.apply (e.apply settings) := by
  by_cases hp : e.switch.partName = e'.switch.partName
  · simp only [Edit.apply, hp, putPart_putPart]
    congr 1
    funext fields
    exact Switch.write_comm h hp
  · exact putPart_comm hp

theorem Edit.read_apply_self : e.switch.read (e.apply settings) = e.value := by
  rw [Switch.read, Edit.apply, part_putPart_self]
  cases e.switch with
  | personalVaultEnabled => simp [Switch.readPart, Switch.write, isFalse]
  | _ => simp [Switch.readPart, Switch.write, isTrue]

theorem Edit.read_apply_of_ne (h : w ≠ e.switch) : w.read (e.apply settings) = w.read settings := by
  by_cases hp : w.partName = e.switch.partName
  · rw [Switch.read, Edit.apply, hp, part_putPart_self, Switch.read, hp]
    obtain ⟨w', v⟩ := e
    cases w <;> cases w' <;> first
      | exact absurd rfl h
      | exact absurd hp (by decide)
      | simp [Switch.readPart, Switch.write, setField_of_ne, dropField_of_ne]
  · rw [Switch.read, Edit.apply, part_putPart_of_ne hp, Switch.read]

end

/-! ## The program -/

/-- `PROD_BYPASS_ROLES` -/
inductive BypassRole
  | admin | superAdmin | none
deriving DecidableEq

/-- What `updateAccessSettings` is asked to change. -/
structure AccessSettings where
  ssoRequired : Option Bool := none
  personalVaultEnabled : Option Bool := none
  prodBypassEnabled : Option Bool := none
  prodApprovalBypassMinRole : Option BypassRole := none

inductive Operation
  | setChatApprovalsAllowProd (allow : Bool)
  | updateAccessSettings (data : AccessSettings)

/-- A call that has written: its slot, and a number. -/
abbrev Txn := Nat × Nat

/-- The database, what has been written so far, oldest first, and which calls have
returned. -/
structure Store where
  settings : Json
  adminRole : Role
  /-- How many providers are active. -/
  ssoConfigs : Nat
  history : List (Txn × Edit) := []
  completed : List (Txn × Operation) := []
  nextTxn : Nat := 0

inductive Point
  | read (e : Edit)
  | count (settings : Json)
  | write (e : Edit) (settings : Json)
  | readRole (withBypass : Bool)
  | writeRole (keys : List String)
  | refuse

/-- A call, the transaction it is since it first wrote, and what it does next. -/
structure Call where
  op : Operation
  txn : Option Txn := none
  point : Point

/-- The last part of `updateAccessSettings`. -/
def bypassPart (data : AccessSettings) : Point :=
  match data.prodApprovalBypassMinRole with
  | some .none => .read ⟨.prodBypassEnabled, false⟩
  | some legacy => .readRole (legacy = .admin)
  | none =>
    match data.prodBypassEnabled with
    | some enabled => .read ⟨.prodBypassEnabled, enabled⟩
    | none => .refuse

def vaultPart (data : AccessSettings) : Point :=
  match data.personalVaultEnabled with
  | some value => .read ⟨.personalVaultEnabled, value⟩
  | none => bypassPart data

def ssoPart (data : AccessSettings) : Point :=
  match data.ssoRequired with
  | some value => .read ⟨.ssoRequired, value⟩
  | none => vaultPart data

def Operation.begin : Operation → Point
  | .setChatApprovalsAllowProd allow => .read ⟨.chatApprovalsAllowProd, allow⟩
  | .updateAccessSettings data => ssoPart data

def Operation.after : Operation → Switch → Option Point
  | .updateAccessSettings data, .ssoRequired =>
    if data.personalVaultEnabled = none ∧ data.prodBypassEnabled = none ∧
      data.prodApprovalBypassMinRole = none then none
    else some (vaultPart data)
  | .updateAccessSettings data, .personalVaultEnabled =>
    if data.prodBypassEnabled = none ∧ data.prodApprovalBypassMinRole = none then none
    else some (bypassPart data)
  | _, _ => none

def adminPermissions (adminRole : Role) (withBypass : Bool) : List String :=
  let current := (permissionsOfRole adminRole).filter fun k ↦ k ≠ "access.prod_bypass"
  normalizePermissions (if withBypass then current ++ ["access.prod_bypass"] else current)

/-- The switch is written, by the transaction `t`. -/
def Store.put (s : Store) (t : Txn) (e : Edit) (settings : Json) : Store :=
  { s with
    settings := e.apply settings
    history := s.history ++ [(t, e)]
    nextTxn := s.nextTxn + 1 }

/-- The transaction the call in slot `i` writes as. -/
def Call.asTxn (k : Call) (i : Nat) (s : Store) : Txn := k.txn.getD (i, s.nextTxn)

/-- The write of a switch, and what comes after it. -/
def writeStep (i : Nat) (s : Store) (k : Call) (e : Edit) (settings : Json) :
    Store × Option Call :=
  match k.op.after e.switch with
  | none =>
    ({ s.put (k.asTxn i s) e settings with completed := (k.asTxn i s, k.op) :: s.completed },
      none)
  | some point =>
    (s.put (k.asTxn i s) e settings, some { k with txn := some (k.asTxn i s), point })

/-- A step of the call in slot `i`. -/
def next (i : Nat) (s : Store) (k : Call) : Store × Option Call :=
  match k.point with
  | .read ⟨.ssoRequired, true⟩ => (s, some { k with point := .count s.settings })
  | .read e => (s, some { k with point := .write e s.settings })
  | .count settings =>
    if s.ssoConfigs = 0 then (s, none)
    else (s, some { k with point := .write ⟨.ssoRequired, true⟩ settings })
  | .write e settings => writeStep i s k e settings
  | .readRole withBypass =>
    (s, some { k with point := .writeRole (adminPermissions s.adminRole withBypass) })
  | .writeRole keys =>
    ({ s with adminRole := { s.adminRole with permissions := keys } },
      some { k with point := .read ⟨.prodBypassEnabled, true⟩ })
  | .refuse => (s, none)

inductive Change
  | ssoConfigs (active : Nat)
  | adminRole (role : Role)

def program : Program Store Operation Call Unit Change where
  start op := { op, point := op.begin }
  act i s k _ := some (next i s k)
  env s
    | .ssoConfigs active => some { s with ssoConfigs := active }
    | .adminRole role => some { s with adminRole := role }

/-- The write changes what is stored as it would have changed what was read, and
the call comes before none that has written this switch already. -/
def Timely (s : Store) (k : Call) (e : Edit) (settings : Json) : Prop :=
  e.apply s.settings = e.apply settings ∧
    ∀ t, k.txn = some t → ∀ u f, u ≠ t → (u, f) ∈ s.history → f.switch = e.switch →
      ¬ Relation.TransGen (Before Edit.switch s.history) t u

/-- Runs in which every write is like that, and no call dies that has written. -/
def Undisturbed (p : Pool Store Call) (e : Event Operation Unit Change) (_ : Pool Store Call) :
    Prop :=
  match e with
  | .act i _ => ∀ k e settings, p.calls i = some k → k.point = .write e settings →
      Timely p.store k e settings
  | .abort i => ∀ k, p.calls i = some k → k.txn = none
  | _ => True

/-! ## What a call changes -/

def AccessSettings.bypass (data : AccessSettings) : Option Bool :=
  (data.prodApprovalBypassMinRole.map fun legacy ↦ decide (legacy ≠ .none)).or
    data.prodBypassEnabled

/-- What the last part sets. -/
def bypassEdits (data : AccessSettings) : List Edit :=
  data.bypass.toList.map fun enabled ↦ ⟨.prodBypassEnabled, enabled⟩

/-- What the last two parts set. -/
def vaultEdits (data : AccessSettings) : List Edit :=
  (data.personalVaultEnabled.toList.map fun value ↦ ⟨.personalVaultEnabled, value⟩) ++
    bypassEdits data

/-- What a call sets. -/
def Operation.edits : Operation → List Edit
  | .setChatApprovalsAllowProd allow => [⟨.chatApprovalsAllowProd, allow⟩]
  | .updateAccessSettings data =>
    (data.ssoRequired.toList.map fun value ↦ ⟨.ssoRequired, value⟩) ++ vaultEdits data

def Operation.perform (op : Operation) (settings : Json) : Json :=
  replay Edit.apply settings op.edits

def Operation.editsAfter : Operation → Switch → List Edit
  | .updateAccessSettings data, .ssoRequired => vaultEdits data
  | .updateAccessSettings data, .personalVaultEnabled => bypassEdits data
  | _, _ => []

/-- What a call that has come to some point has still to set. -/
def Operation.pending (op : Operation) : Point → List Edit
  | .read e | .write e _ => e :: op.editsAfter e.switch
  | .count _ => ⟨.ssoRequired, true⟩ :: op.editsAfter .ssoRequired
  | .readRole _ | .writeRole _ => [⟨.prodBypassEnabled, true⟩]
  | .refuse => []

/-- A point at which a call may yet fail, or one that leads there. -/
def Point.mayFail : Point → Bool
  | .read e | .write e _ => e.switch = .ssoRequired
  | .count _ | .refuse => true
  | .readRole _ | .writeRole _ => false

section

variable {data : AccessSettings} {op : Operation} {w : Switch} {point : Point}

theorem pending_bypassPart : (Operation.updateAccessSettings data).pending (bypassPart data) =
    bypassEdits data := by
  obtain ⟨sso, vault, bypass, legacy⟩ := data
  cases legacy with
  | none => cases bypass <;> rfl
  | some legacy => cases legacy <;> rfl

theorem pending_vaultPart : (Operation.updateAccessSettings data).pending (vaultPart data) =
    vaultEdits data := by
  unfold vaultPart vaultEdits
  cases data.personalVaultEnabled with
  | none => exact pending_bypassPart
  | some value => rfl

theorem pending_begin : op.pending op.begin = op.edits := by
  cases op with
  | setChatApprovalsAllowProd allow => rfl
  | updateAccessSettings data =>
    simp only [Operation.begin, Operation.edits, ssoPart]
    cases data.ssoRequired with
    | none => exact pending_vaultPart
    | some value => rfl

theorem after_eq_some (h : op.after w = some point) : ∃ data, op = .updateAccessSettings data ∧
    (w = .ssoRequired ∧ point = vaultPart data ∧ ¬ (data.personalVaultEnabled = none ∧
        data.prodBypassEnabled = none ∧ data.prodApprovalBypassMinRole = none) ∨
      w = .personalVaultEnabled ∧ point = bypassPart data ∧
        ¬ (data.prodBypassEnabled = none ∧ data.prodApprovalBypassMinRole = none)) := by
  cases op with
  | setChatApprovalsAllowProd allow => cases h
  | updateAccessSettings data =>
    cases w with
    | ssoRequired =>
      simp only [Operation.after] at h
      split at h
      · cases h
      · rename_i hsome
        exact ⟨data, rfl, .inl ⟨rfl, (Option.some.inj h).symm, hsome⟩⟩
    | personalVaultEnabled =>
      simp only [Operation.after] at h
      split at h
      · cases h
      · rename_i hsome
        exact ⟨data, rfl, .inr ⟨rfl, (Option.some.inj h).symm, hsome⟩⟩
    | _ => cases h

theorem pending_after (h : op.after w = some point) : op.pending point = op.editsAfter w := by
  obtain ⟨data, rfl, ⟨rfl, rfl, -⟩ | ⟨rfl, rfl, -⟩⟩ := after_eq_some h
  · exact pending_vaultPart
  · exact pending_bypassPart

theorem editsAfter_eq_nil (h : op.after w = none) : op.editsAfter w = [] := by
  cases op with
  | setChatApprovalsAllowProd allow => rfl
  | updateAccessSettings data =>
    cases w with
    | ssoRequired =>
      simp only [Operation.after] at h
      split at h
      · rename_i hnone
        simp [Operation.editsAfter, vaultEdits, bypassEdits, AccessSettings.bypass, hnone]
      · cases h
    | personalVaultEnabled =>
      simp only [Operation.after] at h
      split at h
      · rename_i hnone
        simp [Operation.editsAfter, bypassEdits, AccessSettings.bypass, hnone]
      · cases h
    | _ => rfl

theorem mayFail_bypassPart
    (h : ¬ (data.prodBypassEnabled = none ∧ data.prodApprovalBypassMinRole = none)) :
    (bypassPart data).mayFail = false := by
  obtain ⟨sso, vault, bypass, legacy⟩ := data
  cases legacy with
  | none =>
    cases bypass with
    | none => exact absurd ⟨rfl, rfl⟩ h
    | some enabled => rfl
  | some legacy => cases legacy <;> rfl

theorem mayFail_after (h : op.after w = some point) : point.mayFail = false := by
  obtain ⟨data, -, ⟨-, rfl, hsome⟩ | ⟨-, rfl, hsome⟩⟩ := after_eq_some h
  · unfold vaultPart
    split
    · rfl
    · rename_i hvault
      exact mayFail_bypassPart fun hb ↦ hsome ⟨hvault, hb⟩
  · exact mayFail_bypassPart hsome

theorem edits_switch_inj {e f : Edit} (he : e ∈ op.edits) (hf : f ∈ op.edits)
    (h : e.switch = f.switch) : e = f := by
  have hnodup : (op.edits.map Edit.switch).Nodup := by
    cases op with
    | setChatApprovalsAllowProd allow => simp [Operation.edits]
    | updateAccessSettings data =>
      simp only [Operation.edits, vaultEdits, bypassEdits]
      cases data.ssoRequired <;> cases data.personalVaultEnabled <;> cases data.bypass <;> simp
  exact List.inj_on_of_nodup_map hnodup he hf h

end

/-! ## The invariant -/

section

variable {settings₀ : Json} {s s' : Store} {i : Nat} {k : Call} {k' : Option Call} {e : Edit}
  {settings : Json}

structure Inv (settings₀ : Json) (s : Store) : Prop where
  /-- The settings are what the writes so far make of the first ones. -/
  settings : s.settings = replay Edit.apply settings₀ (s.history.map Prod.snd)
  serializable : Serializable Edit.switch s.history
  fresh : ∀ x ∈ s.history, x.1.2 < s.nextTxn
  nodup : (s.completed.map Prod.fst).Nodup
  done : ∀ c ∈ s.completed, c.1.2 < s.nextTxn ∧ editsOf s.history c.1 = c.2.edits

/-- What holds of the call in slot `i`. -/
structure Assert (s : Store) (i : Nat) (k : Call) : Prop where
  begun : k.txn = none → k.op.pending k.point = k.op.edits
  /-- A call that has written has made the rest of its edits, and will not fail. -/
  written : ∀ t, k.txn = some t → t.1 = i ∧ t.2 < s.nextTxn ∧ t ∉ s.completed.map Prod.fst ∧
    k.point.mayFail = false ∧ editsOf s.history t ++ k.op.pending k.point = k.op.edits

/-- A step that writes no switch. -/
structure Quiet (s s' : Store) (k : Call) (k' : Option Call) : Prop where
  settings : s'.settings = s.settings
  history : s'.history = s.history
  completed : s'.completed = s.completed
  nextTxn : s'.nextTxn = s.nextTxn
  fails : k' = none → k.point.mayFail = true
  /-- Or it has the same before it as before. -/
  goesOn : ∀ l, k' = some l → l.op = k.op ∧ l.txn = k.txn ∧
    l.op.pending l.point = k.op.pending k.point ∧
    (k.point.mayFail = false → l.point.mayFail = false)

theorem Quiet.goTo {point : Point} (hpending : k.op.pending point = k.op.pending k.point)
    (hfail : k.point.mayFail = false → point.mayFail = false) :
    Quiet s s k (some { k with point }) where
  settings := rfl
  history := rfl
  completed := rfl
  nextTxn := rfl
  fails h := by cases h
  goesOn l hl := by
    obtain rfl := Option.some.inj hl
    exact ⟨rfl, rfl, hpending, hfail⟩

theorem Quiet.fail (h : k.point.mayFail = true) : Quiet s s k none where
  settings := rfl
  history := rfl
  completed := rfl
  nextTxn := rfl
  fails _ := h
  goesOn l hl := by cases hl

theorem next_cases (h : next i s k = (s', k')) : Quiet s s' k k' ∨
    ∃ e settings, k.point = .write e settings ∧ writeStep i s k e settings = (s', k') := by
  obtain ⟨op, txn, point⟩ := k
  cases point with
  | read e =>
    refine .inl ?_
    simp only [next] at h
    split at h
    · rename_i heq
      cases heq
      obtain ⟨rfl, rfl⟩ := Prod.mk.inj h
      exact .goTo rfl id
    · rename_i heq
      cases heq
      obtain ⟨rfl, rfl⟩ := Prod.mk.inj h
      exact .goTo rfl id
    all_goals
      rename_i heq
      cases heq
  | count settings =>
    refine .inl ?_
    simp only [next] at h
    split at h
    · obtain ⟨rfl, rfl⟩ := Prod.mk.inj h
      exact .fail rfl
    · obtain ⟨rfl, rfl⟩ := Prod.mk.inj h
      exact .goTo rfl id
  | write e settings => exact .inr ⟨e, settings, rfl, h⟩
  | readRole withBypass =>
    obtain ⟨rfl, rfl⟩ := Prod.mk.inj h
    exact .inl (.goTo rfl id)
  | writeRole keys =>
    obtain ⟨rfl, rfl⟩ := Prod.mk.inj h
    have hgo : Quiet s s ⟨op, txn, .writeRole keys⟩
        (some ⟨op, txn, .read ⟨.prodBypassEnabled, true⟩⟩) :=
      .goTo (by cases op <;> rfl) fun _ ↦ rfl
    exact .inl { hgo with }
  | refuse =>
    obtain ⟨rfl, rfl⟩ := Prod.mk.inj h
    exact .inl (.fail rfl)

theorem Inv.quiet (h : Inv settings₀ s) (hq : Quiet s s' k k') : Inv settings₀ s' where
  settings := by rw [hq.settings, hq.history]; exact h.settings
  serializable := hq.history ▸ h.serializable
  fresh := by rw [hq.history, hq.nextTxn]; exact h.fresh
  nodup := hq.completed ▸ h.nodup
  done := by rw [hq.completed, hq.history, hq.nextTxn]; exact h.done

theorem Assert.quiet {l : Call} (h : Assert s i l) (hq : Quiet s s' k k') : Assert s' i l where
  begun := h.begun
  written := by rw [hq.completed, hq.history, hq.nextTxn]; exact h.written

theorem Assert.goesOn {l : Call} (h : Assert s i k) (hq : Quiet s s' k (some l)) :
    Assert s' i l := by
  obtain ⟨hop, htxn, hpending, hfail⟩ := hq.goesOn l rfl
  constructor
  · intro hnone
    rw [hpending, hop]
    exact h.begun (htxn ▸ hnone)
  · intro t ht
    obtain ⟨hslot, hlt, hnew, hmay, hall⟩ := h.written t (htxn ▸ ht)
    rw [hq.completed, hq.history, hq.nextTxn, hpending, hop]
    exact ⟨hslot, hlt, hnew, hfail hmay, hall⟩

/-! ### Writing a switch -/

theorem Inv.editsOf_eq_nil (h : Inv settings₀ s) {t : Txn} (ht : s.nextTxn ≤ t.2) :
    editsOf s.history t = [] := by
  by_contra hne
  obtain ⟨x, hx, rfl⟩ := List.mem_map.mp (editsOf_ne_nil.mp hne)
  exact absurd (h.fresh x hx) (Nat.not_lt.mpr ht)

theorem Assert.asTxn (h : Assert s i k) (hI : Inv settings₀ s) :
    (k.asTxn i s).1 = i ∧ (k.asTxn i s).2 < s.nextTxn + 1 ∧
      k.asTxn i s ∉ s.completed.map Prod.fst ∧
      editsOf s.history (k.asTxn i s) ++ k.op.pending k.point = k.op.edits := by
  cases ht : k.txn with
  | none =>
    have hasTxn : k.asTxn i s = (i, s.nextTxn) := by rw [Call.asTxn, ht]; rfl
    rw [hasTxn, hI.editsOf_eq_nil (Nat.le_refl _), h.begun ht]
    refine ⟨rfl, Nat.lt_succ_self _, fun hc ↦ ?_, rfl⟩
    obtain ⟨c, hc, he⟩ := List.mem_map.mp hc
    have hlt := (hI.done c hc).1
    rw [he] at hlt
    exact Nat.lt_irrefl _ hlt
  | some t =>
    have hasTxn : k.asTxn i s = t := by rw [Call.asTxn, ht]; rfl
    obtain ⟨hslot, hlt, hnew, -, hall⟩ := h.written t ht
    rw [hasTxn]
    exact ⟨hslot, Nat.lt_succ_of_lt hlt, hnew, hall⟩

theorem Timely.serializable (h : Timely s k e settings) (hI : Inv settings₀ s) :
    Serializable Edit.switch (s.put (k.asTxn i s) e settings).history := by
  refine hI.serializable.snoc fun u f hne hu hk htrans ↦ ?_
  cases ht : k.txn with
  | some t =>
    have hasTxn : k.asTxn i s = t := by rw [Call.asTxn, ht]; rfl
    rw [hasTxn] at hne htrans
    exact h.2 t ht u f hne hu hk htrans
  | none =>
    -- a call that has not written yet comes before nothing
    have hasTxn : k.asTxn i s = (i, s.nextTxn) := by rw [Call.asTxn, ht]; rfl
    rw [hasTxn] at htrans
    obtain ⟨r, hb, -⟩ := Relation.TransGen.head'_iff.mp htrans
    obtain ⟨⟨g, hg⟩, -⟩ := hb.mem
    exact Nat.lt_irrefl _ (hI.fresh _ hg)

theorem editsOf_put_self {t : Txn} :
    editsOf (s.put t e settings).history t = editsOf s.history t ++ [e] := by
  rw [Store.put, editsOf_append, editsOf_singleton_self]

theorem editsOf_put_of_ne {t u : Txn} (h : u ≠ t) :
    editsOf (s.put t e settings).history u = editsOf s.history u := by
  rw [Store.put, editsOf_append, editsOf_singleton_of_ne h.symm, List.append_nil]

theorem Inv.put (hI : Inv settings₀ s) (hJ : Assert s i k) (h : Timely s k e settings) :
    Inv settings₀ (s.put (k.asTxn i s) e settings) := by
  obtain ⟨-, hlt, hnew, -⟩ := hJ.asTxn hI
  refine ⟨?_, h.serializable hI, ?_, hI.nodup, ?_⟩
  · show e.apply settings = _
    rw [← h.1, Store.put, List.map_append, replay_append, ← hI.settings]
    rfl
  · intro x hx
    rcases List.mem_append.mp hx with hx | hx
    · exact Nat.lt_succ_of_lt (hI.fresh x hx)
    · rw [List.mem_singleton.mp hx]
      exact hlt
  · intro c hc
    obtain ⟨hold, hdone⟩ := hI.done c hc
    have hne : c.1 ≠ k.asTxn i s := fun he ↦ hnew (he ▸ List.mem_map_of_mem hc)
    rw [editsOf_put_of_ne hne]
    exact ⟨Nat.lt_succ_of_lt hold, hdone⟩

theorem Assert.put {t : Txn} {j : Nat} {l : Call} (h : Assert s j l) (hne : t.1 ≠ j) :
    Assert (s.put t e settings) j l := by
  refine ⟨h.begun, fun u hu ↦ ?_⟩
  obtain ⟨hslot, hlt, hnew, hmay, hall⟩ := h.written u hu
  have hut : u ≠ t := fun he ↦ hne (he ▸ hslot)
  rw [editsOf_put_of_ne hut]
  exact ⟨hslot, Nat.lt_succ_of_lt hlt, hnew, hmay, hall⟩

theorem Assert.complete {t : Txn} {op : Operation} {j : Nat} {l : Call} (h : Assert s j l)
    (hne : t.1 ≠ j) : Assert { s with completed := (t, op) :: s.completed } j l := by
  refine ⟨h.begun, fun u hu ↦ ?_⟩
  obtain ⟨hslot, hlt, hnew, hrest⟩ := h.written u hu
  refine ⟨hslot, hlt, fun hc ↦ ?_, hrest⟩
  rcases List.mem_cons.mp hc with rfl | hc
  · exact hne hslot
  · exact hnew hc

theorem Assert.after (hI : Inv settings₀ s) (hJ : Assert s i k) (hk : k.point = .write e settings)
    {point : Point} (ha : k.op.after e.switch = some point) :
    Assert (s.put (k.asTxn i s) e settings) i { k with txn := some (k.asTxn i s), point } := by
  obtain ⟨hslot, hlt, hnew, hall⟩ := hJ.asTxn hI
  refine ⟨fun hnone ↦ (by cases hnone), fun t ht ↦ ?_⟩
  obtain rfl := Option.some.inj ht
  refine ⟨hslot, hlt, hnew, mayFail_after ha, ?_⟩
  have hpending : k.op.pending k.point = e :: k.op.pending point := by
    rw [hk, pending_after ha]
    rfl
  rw [editsOf_put_self, List.append_assoc, List.singleton_append, ← hpending]
  exact hall

theorem Inv.complete (hI : Inv settings₀ s) (hJ : Assert s i k) (h : Timely s k e settings)
    (hk : k.point = .write e settings) (ha : k.op.after e.switch = none) :
    Inv settings₀ { s.put (k.asTxn i s) e settings with
      completed := (k.asTxn i s, k.op) :: s.completed } := by
  obtain ⟨-, hlt, hnew, hall⟩ := hJ.asTxn hI
  have hput := hI.put hJ h
  refine ⟨hput.settings, hput.serializable, hput.fresh, List.nodup_cons.mpr ⟨hnew, hI.nodup⟩, ?_⟩
  intro c hc
  rcases List.mem_cons.mp hc with rfl | hc
  · refine ⟨hlt, ?_⟩
    have hpending : k.op.pending k.point = [e] := by
      rw [hk, Operation.pending, editsAfter_eq_nil ha]
    show editsOf (s.put (k.asTxn i s) e settings).history (k.asTxn i s) = k.op.edits
    rw [editsOf_put_self, ← hall, hpending]
  · exact hput.done c hc

theorem program_keeps : program.Keeps Undisturbed (Inv settings₀) Assert where
  spawn s i op _ := ⟨fun _ ↦ pending_begin, fun t ht ↦ by cases ht⟩
  act p i k _ s' k' hp hk hact hok := by
    have hstep : next i p.store k = (s', k') := Option.some.inj hact
    rcases next_cases hstep with hq | ⟨e, settings, hpoint, hwrite⟩
    · refine ⟨hp.1.quiet hq, ?_, fun j l _ hl ↦ (hp.2 j l hl).quiet hq⟩
      rintro l rfl
      exact (hp.2 i k hk).goesOn hq
    · have htimely : Timely p.store k e settings := hok k e settings hk hpoint
      have hJ := hp.2 i k hk
      have hslot := (hJ.asTxn hp.1).1
      simp only [writeStep] at hwrite
      split at hwrite
      · rename_i hafter
        obtain ⟨rfl, rfl⟩ := Prod.mk.inj hwrite
        refine ⟨hp.1.complete hJ htimely hpoint hafter, fun l hl ↦ (by cases hl), ?_⟩
        intro j l hj hl
        have hne : (k.asTxn i p.store).1 ≠ j := fun he ↦ hj (he.symm.trans hslot)
        exact ((hp.2 j l hl).put hne).complete hne
      · rename_i point hafter
        obtain ⟨rfl, rfl⟩ := Prod.mk.inj hwrite
        refine ⟨hp.1.put hJ htimely, ?_, ?_⟩
        · intro l hl
          obtain rfl := Option.some.inj hl
          exact hJ.after hp.1 hpoint hafter
        · intro j l hj hl
          exact (hp.2 j l hl).put fun he ↦ hj (he.symm.trans hslot)
  abort p i k hp _ := ⟨hp.1, fun j l _ hl ↦ hp.2 j l hl⟩
  env s d s' hI henv := by
    cases d with
    | ssoConfigs active =>
      obtain rfl := Option.some.inj henv
      exact ⟨{ hI with }, fun _ _ hJ ↦ { hJ with }⟩
    | adminRole role =>
      obtain rfl := Option.some.inj henv
      exact ⟨{ hI with }, fun _ _ hJ ↦ { hJ with }⟩

/-! ### Nothing is left half-way -/

/-- Whoever has written has returned, or is in flight. -/
def Accounted (p : Pool Store Call) : Prop :=
  ∀ x ∈ p.store.history, x.1 ∈ p.store.completed.map Prod.fst ∨
    ∃ k, p.calls x.1.1 = some k ∧ k.txn = some x.1

theorem Accounted.act {p : Pool Store Call} (h : Accounted p)
    (hp : Program.Holds (Inv settings₀) Assert p) (hk : p.calls i = some k)
    (hstep : next i p.store k = (s', k')) :
    Accounted ⟨s', Function.update p.calls i k'⟩ := by
  have hJ := hp.2 i k hk
  have hother : ∀ x : Txn × Edit, x.1.1 ≠ i → (∃ l, p.calls x.1.1 = some l ∧ l.txn = some x.1) →
      ∃ l, Function.update p.calls i k' x.1.1 = some l ∧ l.txn = some x.1 := by
    rintro x hx ⟨l, hl, htxn⟩
    exact ⟨l, (Function.update_of_ne hx _ _).trans hl, htxn⟩
  rcases next_cases hstep with hq | ⟨e, settings, hpoint, hwrite⟩
  · intro x hx
    simp only [hq.history, hq.completed] at hx ⊢
    rcases h x hx with hdone | hheld
    · exact .inl hdone
    · refine .inr ?_
      by_cases hi : x.1.1 = i
      · obtain ⟨l, hl, htxn⟩ := hheld
        obtain rfl : k = l := Option.some.inj (hk.symm.trans (hi ▸ hl))
        -- a call that has written does not fail
        have hmay := (hJ.written x.1 htxn).2.2.2.1
        cases hk' : k' with
        | none =>
          have hfail := hq.fails hk'
          rw [hmay] at hfail
          cases hfail
        | some l =>
          refine ⟨l, by rw [hi, Function.update_self], ?_⟩
          rw [(hq.goesOn l hk').2.1]
          exact htxn
      · exact hother x hi hheld
  · have hslot := (hJ.asTxn hp.1).1
    -- the writer is done, or holds its name
    have hself : k.asTxn i p.store ∈ s'.completed.map Prod.fst ∨
        ∃ l, Function.update p.calls i k' (k.asTxn i p.store).1 = some l ∧
          l.txn = some (k.asTxn i p.store) := by
      rw [hslot, Function.update_self]
      simp only [writeStep] at hwrite
      split at hwrite
      · obtain ⟨rfl, -⟩ := Prod.mk.inj hwrite
        exact .inl List.mem_cons_self
      · obtain ⟨-, rfl⟩ := Prod.mk.inj hwrite
        exact .inr ⟨_, rfl, rfl⟩
    have hhistory : s'.history = p.store.history ++ [(k.asTxn i p.store, e)] := by
      simp only [writeStep] at hwrite
      split at hwrite <;>
      · obtain ⟨rfl, -⟩ := Prod.mk.inj hwrite
        rfl
    have hcompleted : p.store.completed ⊆ s'.completed := by
      simp only [writeStep] at hwrite
      split at hwrite
      · obtain ⟨rfl, -⟩ := Prod.mk.inj hwrite
        exact List.subset_cons_self _ _
      · obtain ⟨rfl, -⟩ := Prod.mk.inj hwrite
        exact List.Subset.refl _
    intro x hx
    simp only [hhistory] at hx
    rcases List.mem_append.mp hx with hx | hx
    · rcases h x hx with hdone | hheld
      · exact .inl (List.map_subset _ hcompleted hdone)
      · by_cases hi : x.1.1 = i
        · obtain ⟨l, hl, htxn⟩ := hheld
          obtain rfl : k = l := Option.some.inj (hk.symm.trans (hi ▸ hl))
          have hasTxn : k.asTxn i p.store = x.1 := by rw [Call.asTxn, htxn]; rfl
          rw [hasTxn] at hself
          exact hself
        · exact .inr (hother x hi hheld)
    · rw [List.mem_singleton.mp hx]
      exact hself

theorem Accounted.step {p q : Pool Store Call} {e : Event Operation Unit Change}
    (h : Accounted p) (hp : Program.Holds (Inv settings₀) Assert p)
    (hs : program.step p e = some q) (hok : Undisturbed p e q) : Accounted q := by
  cases e with
  | spawn i op =>
    obtain ⟨hfree, rfl⟩ := Program.step_spawn hs
    intro x hx
    refine (h x hx).imp_right ?_
    rintro ⟨k, hk, htxn⟩
    have hi : x.1.1 ≠ i := fun hi ↦ by simp [← hi, hk] at hfree
    exact ⟨k, (Function.update_of_ne hi _ _).trans hk, htxn⟩
  | act i e =>
    obtain ⟨k, ⟨s', k'⟩, hk, hact, rfl⟩ := Program.step_act hs
    exact h.act hp hk (Option.some.inj hact)
  | abort i =>
    obtain ⟨k, hk, rfl⟩ := Program.step_abort hs
    intro x hx
    refine (h x hx).imp_right ?_
    rintro ⟨l, hl, htxn⟩
    have hi : x.1.1 ≠ i := by
      intro hi
      obtain rfl : k = l := Option.some.inj (hk.symm.trans (hi ▸ hl))
      rw [hok k hk] at htxn
      cases htxn
    exact ⟨l, (Function.update_of_ne hi _ _).trans hl, htxn⟩
  | env d =>
    obtain ⟨s', henv, rfl⟩ := Program.step_env hs
    cases d with
    | ssoConfigs active =>
      obtain rfl := Option.some.inj henv
      exact h
    | adminRole role =>
      obtain rfl := Option.some.inj henv
      exact h

/-! ## Nothing is lost -/

variable (settings₀) in
/-- A switch that has been set has the value of the last edit of it. -/
theorem exists_last {h : List (Txn × Edit)} {x : Txn × Edit} (hx : x ∈ h) :
    ∃ y ∈ h, y.2.switch = x.2.switch ∧ (y = x ∨ [x, y].Sublist h) ∧
      x.2.switch.read (replay Edit.apply settings₀ (h.map Prod.snd)) = y.2.value := by
  induction h using List.reverseRecOn with
  | nil => cases hx
  | append_singleton h z ih =>
    rw [List.map_append, replay_append]
    by_cases hz : x.2.switch = z.2.switch
    · refine ⟨z, by simp, hz.symm, ?_, ?_⟩
      · rcases List.mem_append.mp hx with hx | hx
        · exact .inr ((List.singleton_sublist.mpr hx).append (.refl [z]))
        · exact .inl (List.mem_singleton.mp hx).symm
      · rw [hz]
        exact Edit.read_apply_self
    · have hmem : x ∈ h := by
        rcases List.mem_append.mp hx with hx | hx
        · exact hx
        · exact absurd (congrArg (fun y ↦ y.2.switch) (List.mem_singleton.mp hx)) hz
      obtain ⟨y, hy, hk, hsub, hread⟩ := ih hmem
      refine ⟨y, List.mem_append_left _ hy, hk,
        hsub.imp_right fun hs ↦ hs.trans (List.sublist_append_left _ _), ?_⟩
      rw [← hread]
      exact Edit.read_apply_of_ne hz

/-- What is promised of the settings, which were `settings₀`. -/
structure Kept (settings₀ : Json) (p : Pool Store Call) : Prop where
  /-- When no call is half-way, the settings are what the calls that have returned make of
  them one after the other, in some order. -/
  serial : (∀ i k, p.calls i = some k → k.txn = none) →
    ∃ order : List (Txn × Operation), order.Perm p.store.completed ∧
      p.store.settings = order.foldl (fun settings c ↦ c.2.perform settings) settings₀
  /-- A switch has the value a call set it to, unless another call has set it since. -/
  switches : ∀ c ∈ p.store.completed, ∀ e ∈ c.2.edits,
    e.switch.read p.store.settings = e.value ∨
      ∃ u f, u ≠ c.1 ∧ f.switch = e.switch ∧ [(c.1, e), (u, f)].Sublist p.store.history

theorem Inv.switches (h : Inv settings₀ s) {c : Txn × Operation} (hc : c ∈ s.completed)
    (he : e ∈ c.2.edits) : e.switch.read s.settings = e.value ∨
      ∃ u f, u ≠ c.1 ∧ f.switch = e.switch ∧ [(c.1, e), (u, f)].Sublist s.history := by
  have hmem : ∀ f, (c.1, f) ∈ s.history ↔ f ∈ c.2.edits := by
    intro f
    rw [← (h.done c hc).2]
    simp [editsOf]
  obtain ⟨⟨u, f⟩, hy, hk, hsub, hread⟩ := exists_last settings₀ ((hmem e).mpr he)
  rw [← h.settings] at hread
  by_cases hu : u = c.1
  · subst hu
    obtain rfl : f = e := edits_switch_inj ((hmem f).mp hy) he hk
    exact .inl hread
  · rcases hsub with heq | hsub
    · exact absurd (congrArg Prod.fst heq) hu
    · exact .inr ⟨u, f, hu, hk, hsub⟩

theorem Inv.serial (h : Inv settings₀ s)
    (hall : ∀ x ∈ s.history, x.1 ∈ s.completed.map Prod.fst) :
    ∃ order : List (Txn × Operation), order.Perm s.completed ∧
      s.settings = order.foldl (fun settings c ↦ c.2.perform settings) settings₀ := by
  have hids : ∀ t, t ∈ s.history.map Prod.fst → t ∈ s.completed.map Prod.fst := by
    intro t ht
    obtain ⟨x, hx, rfl⟩ := List.mem_map.mp ht
    exact hall x hx
  have hcomm : ∀ (e f : Edit) settings, e.switch ≠ f.switch →
      e.apply (f.apply settings) = f.apply (e.apply settings) := fun _ _ _ ↦ Edit.apply_comm
  obtain ⟨ids, hperm, heq⟩ := exists_serial (s := settings₀) hcomm h.serializable h.nodup hids
  -- the calls, in the order of the transactions
  have hnames : List.Forall₂ (fun t (c : Txn × Operation) ↦ t = c.1) (s.completed.map Prod.fst)
      s.completed := by
    rw [List.forall₂_map_left_iff]
    exact List.forall₂_same.mpr fun _ _ ↦ rfl
  obtain ⟨order, hnamed, horder⟩ := List.perm_comp_forall₂ hperm hnames
  obtain rfl : ids = order.map Prod.fst := by
    rw [← List.forall₂_eq_eq_eq, List.forall₂_map_right_iff]
    exact hnamed
  refine ⟨order, horder, ?_⟩
  rw [h.settings, heq, Lib.serial, List.flatMap_map, replay, List.foldl_flatMap]
  refine List.foldl_ext _ _ _ fun settings c hc ↦ ?_
  rw [(h.done c (horder.subset hc)).2]
  rfl

/-- **No setting is lost, in every run in which every write changes what is stored as
it would have changed what was read, no call writes a switch again that a call after it
has written, and no call dies half-way.** -/
theorem run_kept {p : Pool Store Call} {es : List (Event Operation Unit Change)}
    (hhistory : s.history = []) (hcompleted : s.completed = [])
    (hr : Run program.step Undisturbed (Program.idle Call s) es p) : Kept s.settings p := by
  have h₀ : Inv s.settings s := by
    constructor <;> simp [hhistory, hcompleted, serializable_nil]
  have hnone : Accounted (Program.idle Call s) := by
    intro x hx
    simp [Program.idle, hhistory] at hx
  obtain ⟨hp, hacc⟩ : Program.Holds (Inv s.settings) Assert p ∧ Accounted p :=
    hr.invariant (I := fun p ↦ Program.Holds (Inv s.settings) Assert p ∧ Accounted p)
      ⟨Program.holds_idle h₀, hnone⟩
      fun p e q h hs hok ↦ ⟨program_keeps.step h.1 hs hok, h.2.step h.1 hs hok⟩
  refine ⟨fun hidle ↦ hp.1.serial fun x hx ↦ ?_, fun c hc e he ↦ hp.1.switches hc he⟩
  rcases hacc x hx with hdone | ⟨k, hk, htxn⟩
  · exact hdone
  · rw [hidle _ k hk] at htxn
    cases htxn

end

def fresh : Store where
  settings := .obj fun _ ↦ none
  adminRole := { id := "admin", orgId := "org", key := "admin", baseRole := .admin }
  ssoConfigs := 1

def allowsChat : Operation := .setChatApprovalsAllowProd true

def closesVault : Operation :=
  .updateAccessSettings { ssoRequired := some false, personalVaultEnabled := some false }

theorem undisturbed_act {p q : Pool Store Call} {i : Nat} {k : Call} (hk : p.calls i = some k)
    (h : ∀ e settings, k.point = .write e settings → Timely p.store k e settings) :
    Undisturbed p (.act i ()) q := by
  intro l e settings hl hpoint
  obtain rfl : k = l := Option.some.inj (hk.symm.trans hl)
  exact h e settings hpoint

/-- The call for the chat comes between the two parts of the other. -/
theorem run_kept_both : ∃ p es, Run program.step Undisturbed (Program.idle Call fresh) es p ∧
    Kept fresh.settings p ∧ p.calls 0 = none ∧ p.calls 1 = none ∧
    p.store.completed = [((0, 0), closesVault), ((1, 1), allowsChat)] := by
  have hr : Run program.step Undisturbed (Program.idle Call fresh) _ _ :=
    Run.nil
      |>.snoc (e := .spawn 0 closesVault) rfl trivial
      |>.snoc (e := .act 0 ()) rfl (undisturbed_act rfl fun _ _ h ↦ by cases h)
      |>.snoc (e := .act 0 ()) rfl (undisturbed_act rfl fun _ _ h ↦ by
        cases h
        exact ⟨rfl, fun t ht ↦ nomatch ht⟩)
      |>.snoc (e := .spawn 1 allowsChat) rfl trivial
      |>.snoc (e := .act 1 ()) rfl (undisturbed_act rfl fun _ _ h ↦ by cases h)
      |>.snoc (e := .act 1 ()) rfl (undisturbed_act rfl fun _ _ h ↦ by
        cases h
        exact ⟨rfl, fun t ht ↦ nomatch ht⟩)
      |>.snoc (e := .act 0 ()) rfl (undisturbed_act rfl fun _ _ h ↦ by cases h)
      |>.snoc (e := .act 0 ()) rfl (undisturbed_act rfl fun _ _ h ↦ by
        cases h
        refine ⟨rfl, fun t _ u f _ hmem hk ↦ absurd hk ?_⟩
        rcases List.mem_cons.mp hmem with he | hmem
        · cases he
          decide
        · cases List.mem_singleton.mp hmem
          decide)
  exact ⟨_, _, hr, run_kept rfl rfl hr, rfl, rfl, rfl⟩

def requiresSso : Operation := .updateAccessSettings { ssoRequired := some true }

def bothRead : List (Event Operation Unit Change) :=
  [.spawn 0 requiresSso, .spawn 1 allowsChat, .act 0 (), .act 0 (), .act 1 (), .act 0 (),
    .act 1 ()]

/-- The later write undoes the other one: single sign-on is not required. -/
theorem sso_lost : ∃ p : Pool Store Call,
    Run program.step free (Program.idle Call fresh) bothRead p ∧
      p.calls 0 = none ∧ p.calls 1 = none ∧
      p.store.completed = [((1, 1), allowsChat), ((0, 0), requiresSso)] ∧
      Switch.ssoRequired.read p.store.settings = false ∧ ¬ Kept fresh.settings p := by
  have h : exec program.step (Program.idle Call fresh) bothRead = some _ := rfl
  refine ⟨_, run_of_exec h, rfl, rfl, rfl, rfl, fun hkept ↦ ?_⟩
  rcases hkept.switches ((0, 0), requiresSso) (.tail _ (.head _)) ⟨.ssoRequired, true⟩ (.head _)
    with hread | ⟨u, f, hu, hk, hsub⟩
  · cases hread
  · rcases List.mem_cons.mp (hsub.subset (.tail _ (.head _))) with he | hmem
    · cases he
      exact hu rfl
    · cases List.mem_singleton.mp hmem
      cases hk

end Shellius.OrgSettings
