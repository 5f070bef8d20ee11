import Shellius.Access.World

/-!
# What becomes of certificates

Once a request is revoked or has expired, none of the certificates issued for it
should let anybody in.  A request is linked to the last of them only, and
revoking it revokes that one; the others go on until they expire.
`sealed_iff_revokedWhole` says that this is the only way for a certificate to
outlive its request.
-/

namespace Shellius

open Lib

namespace World

variable {cfg : Config} {w w' : World} {op : Op} {r r' : AccessRequest} {c c' : Certificate}

/-- A request that was revoked or has expired. -/
def IsOver (r : AccessRequest) : Prop := r.status = .revoked ∨ r.status = .expired

/-- `verify` refuses every certificate of a request that is over: for every
principal and every host, from now on, whatever the organization looks like. -/
def Sealed (cfg : Config) (w : World) : Prop :=
  ∀ r ∈ w.accessRequests, IsOver r → ∀ c ∈ w.certificates, c.keyId = certKeyId r.id →
    ∀ later db params, w.now ≤ later → params.serial = .number c.serial →
      (({ w with now := later, db } : World).verify cfg.checkUserStatus params).1.valid = false

def toRevoke (w : World) : Op → Option AccessRequest
  | .revoke params =>
    (w.findToRevoke params).filter fun r ↦
      (checkRevokeParams params).isOk && (checkRevoke params r).isOk
  | _ => none

/-- If the operation revokes a request, the certificates of the request that it
is not linked to have expired. -/
def revokedWhole (w : World) (op : Op) : Bool :=
  (w.toRevoke op).all fun r ↦ w.certificates.all fun c ↦
    c.keyId = certKeyId r.id → r.certificateId ≠ some c.id → c.validBefore ≤ w.now

/-- The steps that leave no certificate behind. -/
def RevokedWhole (w : World) (op : Op) (_ : World) : Prop := w.revokedWhole op = true

/-! ## How requests and certificates change -/

/-- The row `r'` is a later form of `r`, and keeps its deadline once it has one. -/
structure Later (r r' : AccessRequest) : Prop where
  id : r'.id = r.id
  settled : r.status ≠ .pending → r.status ≠ .denied →
    r'.status ≠ .pending ∧ r'.status ≠ .denied ∧ r'.expiresAt = r.expiresAt

theorem RowStep.later (h : RowStep cfg w op r') :
    (∃ r ∈ w.accessRequests, Later r r') ∨ r'.id ∉ w.drawn := by
  cases h with
  | kept hr => exact .inl ⟨_, hr, rfl, fun hp hd ↦ ⟨hp, hd, rfl⟩⟩
  | detached hr => exact .inl ⟨_, hr, rfl, fun hp hd ↦ ⟨hp, hd, rfl⟩⟩
  | submitted hid hs => exact .inr (submit_id hs ▸ hid)
  | reviewed hr hd hr' =>
    obtain ⟨-, -, hpending, -⟩ := reviewRow_ok hr'
    exact .inl ⟨_, (lookup_spec hr).1, reviewRow_id hr', fun hp _ ↦ (hp hpending).elim⟩
  | revoked hr => exact .inl ⟨_, hr, rfl, fun _ _ ↦ ⟨by simp [revokeRow], by simp [revokeRow], rfl⟩⟩
  | expired hr => exact .inl ⟨_, hr, rfl, fun _ _ ↦ ⟨by simp [expireRow], by simp [expireRow], rfl⟩⟩
  | stale hr => exact .inl ⟨_, hr, rfl, fun _ _ ↦ ⟨by simp [expireRow], by simp [expireRow], rfl⟩⟩
  | linked _ hr => exact .inl ⟨_, (lookup_spec hr).1, rfl, fun hp hd ↦ ⟨hp, hd, rfl⟩⟩
  | granted hid hg => exact .inr (hg.id ▸ hid)

/-- The certificate `c'` is `c`, perhaps revoked. -/
structure Persists (c c' : Certificate) : Prop where
  id : c'.id = c.id
  serial : c'.serial = c.serial
  keyId : c'.keyId = c.keyId
  principals : c'.principals = c.principals
  validAfter : c'.validAfter = c.validAfter
  validBefore : c'.validBefore = c.validBefore
  status : c'.status = c.status ∨ c'.status = .revoked

theorem CertificateStep.persists (h : CertificateStep w op c') :
    (∃ c ∈ w.certificates, Persists c c') ∨
      ∃ params signed server r, op = .generateSshCredentials params signed ∧ c'.id ∉ w.drawn ∧
        lookup AccessRequest.id params.requestId w.accessRequests = some r ∧
        Shellius.generateSshCredentials w.db w.now params signed r server = .ok c' := by
  cases h with
  | kept hc => exact .inl ⟨_, hc, rfl, rfl, rfl, rfl, rfl, rfl, .inl rfl⟩
  | detached hc => exact .inl ⟨_, hc, rfl, rfl, rfl, rfl, rfl, rfl, .inl rfl⟩
  | revoked _ _ hc => exact .inl ⟨_, hc, rfl, rfl, rfl, rfl, rfl, rfl, .inr rfl⟩
  | issued hid hr hc => exact .inr ⟨_, _, _, _, rfl, hid, hr, hc⟩

theorem now_le_step (h : step cfg w op = some w') : w.now ≤ w'.now := by
  cases step_effect h with
  | ticked hle => exact hle
  | _ => exact le_rfl

/-! ## The invariant -/

/-- What ties certificates to requests. -/
structure Inv (w : World) : Prop extends Keyed w where
  named : ∀ c ∈ w.certificates, ∃ id ∈ w.drawn, c.keyId = certKeyId id
  /-- That request was approved, and its deadline is not before that of the
  certificate. -/
  approved : ∀ r ∈ w.accessRequests, ∀ c ∈ w.certificates, c.keyId = certKeyId r.id →
    r.status ≠ .pending ∧ r.status ≠ .denied ∧
      ∃ t, r.expiresAt = some t ∧ c.validBefore ≤ t
  linked : ∀ r ∈ w.accessRequests, ∀ id, r.certificateId = some id → id ∈ w.drawn ∧
    ∀ c ∈ w.certificates, c.id = id → c.keyId = certKeyId r.id
  usable : ∀ c ∈ w.certificates, c.validAfter ≤ w.now ∧ ∃ u ∈ c.principals, u ≠ ""
  /-- Only the linked certificate of a request that is over was revoked. -/
  active : ∀ r ∈ w.accessRequests, ∀ c ∈ w.certificates, c.keyId = certKeyId r.id →
    c.status ≠ .active → r.certificateId = some c.id ∧ r.status ≠ .approved

theorem Initial.inv (h : Initial w) : Inv w where
  toKeyed := h.keyed
  named := by simp [h.certificates]
  approved := by simp [h.certificates]
  linked := by simp [h.accessRequests]
  usable := by simp [h.certificates]
  active := by simp [h.certificates]

theorem Inv.keyId_ne {id : Id} (h : Inv w) (hc : c ∈ w.certificates) (hid : id ∉ w.drawn) :
    c.keyId ≠ certKeyId id := by
  obtain ⟨id', hid', he⟩ := h.named c hc
  intro he'
  exact hid (certKeyId_injective (he'.symm.trans he) ▸ hid')

theorem Keyed.eq (h : Keyed w) (hr : r ∈ w.accessRequests) (hr' : r' ∈ w.accessRequests)
    (hid : r.id = r'.id) : r = r' := List.inj_on_of_nodup_map h.requests hr hr' hid

theorem toRevoke_eq_some :
    w.toRevoke op = some r ↔ ∃ params, op = .revoke params ∧ checkRevokeParams params = .ok () ∧
      w.findToRevoke params = some r ∧ checkRevoke params r = .ok () := by
  have isOk_iff : ∀ x : Except ApiError Unit, x.isOk = true ↔ x = .ok () := by
    rintro (e | ⟨⟩) <;> simp [Except.isOk, Except.toBool]
  cases op with
  | revoke params =>
    simp only [toRevoke, Option.filter_eq_some_iff, Bool.and_eq_true, isOk_iff]
    constructor
    · rintro ⟨hr, hparams, hcheck⟩
      exact ⟨params, rfl, hparams, hr, hcheck⟩
    · rintro ⟨_, ⟨⟩, hparams, hr, hcheck⟩
      exact ⟨hr, hparams, hcheck⟩
  | _ => simp [toRevoke]

theorem revokedWhole_iff : RevokedWhole w op w' ↔ ∀ r, w.toRevoke op = some r →
    ∀ c ∈ w.certificates, c.keyId = certKeyId r.id → r.certificateId ≠ some c.id →
      c.validBefore ≤ w.now := by
  cases h : w.toRevoke op with
  | none => simp [RevokedWhole, revokedWhole, h]
  | some q =>
    simp only [RevokedWhole, revokedWhole, h, Option.all_some, List.all_eq_true,
      decide_eq_true_eq, Option.some.injEq, forall_eq']

/-- What `generateSshCredentials` issues, for the request it issues it for. -/
theorem issued_spec {params : GenerateParams} {signed : Option Signed} {server : Server}
    (hr : lookup AccessRequest.id params.requestId w.accessRequests = some r)
    (hc : Shellius.generateSshCredentials w.db w.now params signed r server = .ok c) :
    r ∈ w.accessRequests ∧ r.status = .approved ∧ c.keyId = certKeyId r.id ∧
      c.validAfter = w.now ∧ c.status = .active ∧ (∃ u ∈ c.principals, u ≠ "") ∧
        ∃ t, r.expiresAt = some t ∧ c.validBefore ≤ t := by
  obtain ⟨hmem, hid⟩ := lookup_spec hr
  obtain ⟨s, _, primary, -, hcheck, rfl⟩ := Shellius.generateSshCredentials_ok hc
  obtain ⟨hst, t, ht, rfl, -⟩ := checkGenerate_ok hcheck
  exact ⟨hmem, hst, congrArg certKeyId hid.symm, rfl, rfl,
    ⟨_, legacySshUser_mem_principals, legacySshUser_ne_empty server⟩, t, ht,
    certificateRow_validBefore_le⟩

theorem RowStep.issuing {params : GenerateParams} {signed : Option Signed}
    (h : RowStep cfg w (.generateSshCredentials params signed) r') :
    ∃ r ∈ w.accessRequests, r'.id = r.id ∧ r'.status = r.status ∧ r'.expiresAt = r.expiresAt := by
  cases h with
  | kept hr => exact ⟨_, hr, rfl, rfl, rfl⟩
  | linked _ hr => exact ⟨_, (lookup_spec hr).1, rfl, rfl, rfl⟩

theorem Inv.keyId_of_truthy (h : Inv w) (hr : r ∈ w.accessRequests) (hc : c ∈ w.certificates)
    (hid : truthy r.certificateId = some c.id) : c.keyId = certKeyId r.id :=
  (h.linked r hr c.id (truthy_eq_some.mp hid).1).2 c hc rfl

theorem RowStep.certificateId (h : RowStep cfg w op r') {id : Id} (hid : r'.certificateId = some id) :
    (∃ r ∈ w.accessRequests, r'.id = r.id ∧ r.certificateId = some id) ∨
      ∃ params signed, op = .generateSshCredentials params signed := by
  cases h with
  | kept hr | detached hr | revoked hr | expired hr | stale hr => exact .inl ⟨_, hr, rfl, hid⟩
  | submitted _ hs =>
    obtain ⟨s, e, -, -, ⟨-, primary, others, -, rfl⟩ | ⟨-, -, rfl⟩⟩ := submit_cases hs <;>
      simp [pendingRow, approvedRow] at hid
  | reviewed hr hd hr' =>
    rename_i decision r
    obtain ⟨-, -, -, rfl⟩ := reviewRow_ok hr'
    refine .inl ⟨r, (lookup_spec hr).1, reviewRow_id hr', ?_⟩
    cases decision <;> exact hid
  | linked => exact .inr ⟨_, _, rfl⟩
  | granted _ hg =>
    obtain ⟨_, _, _, _, -, rfl⟩ := hg
    simp [breakGlassRow] at hid

theorem linked_step (h : Inv w) (hs : World.step cfg w op = some w')
    (hr' : r' ∈ w'.accessRequests) {id : Id} (hid : r'.certificateId = some id) :
    id ∈ w'.drawn ∧ ∀ c' ∈ w'.certificates, c'.id = id → c'.keyId = certKeyId r'.id := by
  -- a link from before the step: the certificates it names are from before as well
  have old : ∀ r ∈ w.accessRequests, r'.id = r.id → r.certificateId = some id →
      id ∈ w'.drawn ∧ ∀ c' ∈ w'.certificates, c'.id = id → c'.keyId = certKeyId r'.id := by
    intro r hr he hlink
    obtain ⟨hdrawn, hnames⟩ := h.linked r hr id hlink
    refine ⟨drawn_step hs id hdrawn, fun c' hc' hcid ↦ ?_⟩
    rcases (step_certificates hs hc').persists with ⟨c, hc, hp⟩ | ⟨_, _, _, _, -, hnew, -⟩
    · exact he ▸ hp.keyId.trans (hnames c hc (hp.id.symm.trans hcid))
    · exact (hnew (hcid ▸ hdrawn)).elim
  rcases (step_rows h.requests hs hr').certificateId hid with
    ⟨r, hr, he, hlink⟩ | ⟨params, signed, rfl⟩
  · exact old r hr he hlink
  · cases step_effect hs with
    | failed => exact old r' hr' rfl hid
    | issued _ hfresh _ hq hc =>
      rcases mem_modify.mp hr' with ⟨hr, -⟩ | ⟨r, hr, hrid, rfl⟩
      · exact old r' hr rfl hid
      · obtain rfl := Option.some.inj hid
        refine ⟨List.mem_cons_self, fun c' hc' hcid ↦ ?_⟩
        rcases List.mem_append.mp hc' with hc' | hc'
        · exact (hfresh (hcid ▸ (h.drawnCertificates c' hc').1)).elim
        · obtain ⟨_, _, _, -, -, rfl⟩ := Shellius.generateSshCredentials_ok hc
          rw [List.mem_singleton.mp hc']
          exact congrArg certKeyId hrid.symm

/-- A certificate that is revoked after a step was revoked before, or is the
linked one of a request that is over now. -/
theorem active_step (h : Inv w) (hs : World.step cfg w op = some w')
    (hr' : r' ∈ w'.accessRequests) (hc' : c' ∈ w'.certificates)
    (hkey : c'.keyId = certKeyId r'.id) (hst : c'.status ≠ .active) :
    r'.certificateId = some c'.id ∧ r'.status ≠ .approved := by
  cases step_effect hs with
  | changed =>
    obtain ⟨r, hr, rfl⟩ := List.mem_map.mp hr'
    obtain ⟨c, hc, rfl⟩ := List.mem_map.mp hc'
    exact h.active r (List.mem_of_mem_filter hr) c hc hkey hst
  | submitted hid hq =>
    rcases List.mem_append.mp hr' with hr | hr
    · exact h.active r' hr c' hc' hkey hst
    · rw [List.mem_singleton.mp hr, submit_id hq] at hkey
      exact (h.keyId_ne hc' hid hkey).elim
  | granted hid hg =>
    rcases List.mem_append.mp hr' with hr | hr
    · exact h.active r' hr c' hc' hkey hst
    · rw [List.mem_singleton.mp hr, hg.id] at hkey
      exact (h.keyId_ne hc' hid hkey).elim
  | reviewed hd hq hq' =>
    rcases mem_modify.mp hr' with ⟨hr, -⟩ | ⟨-, -, -, rfl⟩
    · exact h.active r' hr c' hc' hkey hst
    · have hpending := (reviewRow_ok hq').2.2.1
      rw [reviewRow_id hq'] at hkey
      exact ((h.approved _ (lookup_spec hq).1 c' hc' hkey).1 hpending).elim
  | revoked _ hq _ =>
    have hqm := (findToRevoke_spec hq).1
    rcases mem_modify.mp hr' with ⟨hr, hne⟩ | ⟨a, ha, hid, rfl⟩ <;>
      rcases mem_revokeLinked hc' with hc | ⟨c, hc, hlink, rfl⟩
    · exact h.active r' hr c' hc hkey hst
    · have hkey' := h.keyId_of_truthy hqm hc hlink
      exact (hne (certKeyId_injective (hkey.symm.trans hkey'))).elim
    · exact ⟨(h.active a ha c' hc hkey hst).1, by simp [revokeRow]⟩
    · obtain rfl := h.toKeyed.eq ha hqm hid
      exact ⟨(truthy_eq_some.mp hlink).1, by simp [revokeRow]⟩
  | expired =>
    obtain ⟨r, hr, rfl⟩ := List.mem_map.mp hr'
    have hid : (if hasExpired w.now r then expireRow r else r).id = r.id := by split <;> rfl
    rw [hid] at hkey
    rcases mem_revokeAll hc' with hc | ⟨c, hc, q, hq, hlink, rfl⟩
    · obtain ⟨hl, hne⟩ := h.active r hr c' hc hkey hst
      split
      · exact ⟨hl, by simp [expireRow]⟩
      · exact ⟨hl, hne⟩
    · obtain ⟨hqm, hexp⟩ := List.mem_filter.mp hq
      have hkey' := h.keyId_of_truthy hqm hc hlink
      obtain rfl := h.toKeyed.eq hr hqm (certKeyId_injective (hkey.symm.trans hkey'))
      rw [if_pos hexp]
      exact ⟨(truthy_eq_some.mp hlink).1, by simp [expireRow]⟩
  | stale =>
    obtain ⟨r, hr, rfl⟩ := List.mem_map.mp hr'
    have hid : (if isStale (pendingCutoff w.now) r then expireRow r else r).id = r.id := by
      split <;> rfl
    rw [hid] at hkey
    obtain ⟨hl, hne⟩ := h.active r hr c' hc' hkey hst
    split
    · exact ⟨hl, by simp [expireRow]⟩
    · exact ⟨hl, hne⟩
  | issued _ _ _ hq hc =>
    obtain ⟨hqm, happ, -, -, hact, -⟩ := issued_spec hq hc
    rcases List.mem_append.mp hc' with hc' | hc'
    · rcases mem_modify.mp hr' with ⟨hr, -⟩ | ⟨a, ha, hid, rfl⟩
      · exact h.active r' hr c' hc' hkey hst
      · obtain rfl := h.toKeyed.eq ha hqm (hid.trans (lookup_spec hq).2.symm)
        exact ((h.active a ha c' hc' hkey hst).2 happ).elim
    · rw [List.mem_singleton.mp hc'] at hst
      exact (hst hact).elim
  | _ => exact h.active r' hr' c' hc' hkey hst

theorem Inv.step (h : Inv w) (hs : World.step cfg w op = some w') : Inv w' where
  toKeyed := h.toKeyed.step hs
  named c' hc' := by
    rcases (step_certificates hs hc').persists with ⟨c, hc, hp⟩ | ⟨_, _, _, r, rfl, -, hr, hc⟩
    · obtain ⟨id, hid, he⟩ := h.named c hc
      exact ⟨id, drawn_step hs id hid, hp.keyId.trans he⟩
    · obtain ⟨hmem, -, hkey, -⟩ := issued_spec hr hc
      exact ⟨r.id, drawn_step hs _ (h.drawn r hmem), hkey⟩
  approved r' hr' c' hc' hkey := by
    have hrow := step_rows h.requests hs hr'
    rcases (step_certificates hs hc').persists with ⟨c, hc, hp⟩ | ⟨_, _, _, r₀, rfl, -, hr₀, hc⟩
    · rcases hrow.later with ⟨r, hr, hl⟩ | hnew
      · obtain ⟨hnp, hnd, t, ht, hle⟩ := h.approved r hr c hc (hp.keyId ▸ hl.id ▸ hkey)
        obtain ⟨hnp', hnd', he⟩ := hl.settled hnp hnd
        exact ⟨hnp', hnd', t, he.trans ht, hp.validBefore ▸ hle⟩
      · exact (h.keyId_ne hc hnew (hp.keyId ▸ hkey)).elim
    · obtain ⟨hmem, hst, hkey₀, -, -, -, t, ht, hle⟩ := issued_spec hr₀ hc
      obtain ⟨r, hr, hid, hst', he⟩ := hrow.issuing
      obtain rfl := h.toKeyed.eq hr hmem
        (hid.symm.trans (certKeyId_injective (hkey.symm.trans hkey₀)))
      exact ⟨by simp [hst', hst], by simp [hst', hst], t, he.trans ht, hle⟩
  linked r' hr' id hid := linked_step h hs hr' hid
  usable c' hc' := by
    rcases (step_certificates hs hc').persists with ⟨c, hc, hp⟩ | ⟨_, _, _, r, rfl, -, hr, hc⟩
    · obtain ⟨ha, hu⟩ := h.usable c hc
      exact ⟨hp.validAfter ▸ ha.trans (now_le_step hs), hp.principals ▸ hu⟩
    · obtain ⟨-, -, -, ha, -, hu, -⟩ := issued_spec hr hc
      exact ⟨ha ▸ now_le_step hs, hu⟩
  active r' hr' c' hc' hkey hst := active_step h hs hr' hc' hkey hst

/-! ## Sealing -/

/-- A certificate that was revoked or has expired. -/
def Dead (now : Millis) (c : Certificate) : Prop := c.status ≠ .active ∨ c.validBefore ≤ now

theorem sealed_iff (h : Inv w) : Sealed cfg w ↔
    ∀ r ∈ w.accessRequests, IsOver r → ∀ c ∈ w.certificates, c.keyId = certKeyId r.id →
      Dead w.now c := by
  constructor
  · intro hs r hr hover c hc hkey
    by_contra hlive
    simp only [Dead, not_or, not_not, not_le] at hlive
    obtain ⟨hafter, u, hu, hne⟩ := h.usable c hc
    -- a host that authenticates nobody asks about it when the owner is gone
    have hno : refusal cfg.checkUserStatus {} w.now { serial := .number c.serial, principal := u }
        c = none := refusal_eq_none hlive.1 hafter hlive.2 hu rfl
    have hvalid := verifyCertificate_of_no_refusal w.accessRequests (lookup_of_mem h.serials hc)
      hne hno
    have hrefused := hs r hr hover c hc hkey w.now {} ⟨.number c.serial, u, none⟩ le_rfl rfl
    exact Bool.false_ne_true (hrefused.symm.trans hvalid)
  · intro hd r hr hover c hc hkey later db params hle hserial
    refine verifyCertificate_of_refusal (lookup_of_mem h.serials hc) (refusal_of_dead ?_) hserial
    exact (hd r hr hover c hc hkey).imp_right fun hb ↦ hb.trans hle

theorem Dead.step (hd : Dead w.now c) (hp : Persists c c') (hle : w.now ≤ w'.now) :
    Dead w'.now c' := by
  rcases hd with hst | hb
  · exact .inl (hp.status.elim (fun he ↦ he ▸ hst) fun he ↦ by simp [he])
  · exact .inr (hp.validBefore ▸ hb.trans hle)

/-- A step keeps the certificates of requests that are over dead if it revokes
requests whole. -/
theorem dead_step (h : Inv w) (hs : step cfg w op = some w') (hwhole : RevokedWhole w op w')
    (hdead : ∀ r ∈ w.accessRequests, IsOver r → ∀ c ∈ w.certificates, c.keyId = certKeyId r.id →
      Dead w.now c) :
    ∀ r ∈ w'.accessRequests, IsOver r → ∀ c ∈ w'.certificates, c.keyId = certKeyId r.id →
      Dead w'.now c := by
  intro r' hr' hover c' hc' hkey
  have hle := now_le_step hs
  rcases (step_certificates hs hc').persists with ⟨c, hc, hp⟩ | ⟨_, _, _, r₀, rfl, -, hr₀, hc⟩
  · rw [hp.keyId] at hkey
    have hdeadline : ∀ r ∈ w.accessRequests, r.id = r'.id →
        (∀ t, r.expiresAt = some t → t ≤ w.now) → Dead w'.now c' := by
      intro r hr hid hpast
      obtain ⟨-, -, t, ht, hb⟩ := h.approved r hr c hc (hid ▸ hkey)
      exact Dead.step (.inr (hb.trans (hpast t ht))) hp hle
    cases step_rows h.requests hs hr' with
    | kept hr | detached hr => exact (hdead _ hr hover c hc hkey).step hp hle
    | submitted hid hq => exact (h.keyId_ne hc hid (submit_id hq ▸ hkey)).elim
    | granted hid hg => exact (h.keyId_ne hc hid (hg.id ▸ hkey)).elim
    | reviewed hr hd hq =>
      rw [reviewRow_id hq] at hkey
      exact ((h.approved _ (lookup_spec hr).1 c hc hkey).1 (reviewRow_ok hq).2.2.1).elim
    | revoked hr hq hcheck =>
      rename_i params r
      cases step_effect hs with
      | failed => exact hdead _ hr' hover c' hc' (hp.keyId.trans hkey)
      | revoked hparams hq' _ =>
        obtain rfl := Option.some.inj (hq.symm.trans hq')
        by_cases hlink : r.certificateId = some c.id
        · have htruthy : truthy r.certificateId = some c'.id :=
            truthy_eq_some.mpr ⟨hp.id ▸ hlink, hp.id ▸ (h.drawnCertificates c hc).2⟩
          exact .inl (by simp [revokeLinked_revokes h.certificates hc' htruthy])
        · have hrevoke := toRevoke_eq_some.mpr ⟨params, rfl, hparams, hq, hcheck⟩
          exact Dead.step (.inr (revokedWhole_iff.mp hwhole r hrevoke c hc hkey hlink)) hp hle
    | expired hr hexp =>
      obtain ⟨-, hpast⟩ := of_decide_eq_true hexp
      exact hdeadline _ hr rfl fun t ht ↦ by
        rw [ht] at hpast
        exact (of_decide_eq_true hpast).le
    | stale hr hst =>
      obtain ⟨hpending, -⟩ := of_decide_eq_true hst
      exact ((h.approved _ hr c hc hkey).1 hpending).elim
    | linked _ hr hq =>
      obtain ⟨-, happ, -⟩ := issued_spec hr hq
      rcases hover with ho | ho <;> simp [linkRow, happ] at ho
  · obtain ⟨hmem, happ, hkey₀, -⟩ := issued_spec hr₀ hc
    obtain ⟨r, hr, hid, hst, -⟩ := (step_rows h.requests hs hr').issuing
    obtain rfl := h.toKeyed.eq hr hmem
      (hid.symm.trans (certKeyId_injective (hkey.symm.trans hkey₀)))
    rcases hover with ho | ho <;> simp [hst, happ] at ho

theorem revokedWhole_of_dead (h : Inv w) (hs : step cfg w op = some w')
    (hdead : ∀ r ∈ w'.accessRequests, IsOver r → ∀ c ∈ w'.certificates, c.keyId = certKeyId r.id →
      Dead w'.now c) : RevokedWhole w op w' := by
  refine revokedWhole_iff.mpr fun r hop c hc hkey hlink ↦ ?_
  obtain ⟨params, rfl, hparams, hq, hcheck⟩ := toRevoke_eq_some.mp hop
  have hrevoke : w.revoke params = .ok { w with
      accessRequests := modify AccessRequest.id r.id (revokeRow params w.now) w.accessRequests
      certificates := revokeLinked r.certificateId w.certificates } := by
    simp [revoke, hparams, hq, hcheck]
  obtain rfl : w.after (w.revoke params) = w' := Option.some.inj hs
  rw [hrevoke] at hdead
  have hr' : revokeRow params w.now r ∈
      modify AccessRequest.id r.id (revokeRow params w.now) w.accessRequests :=
    mem_modify.mpr (.inr ⟨r, (findToRevoke_spec hq).1, rfl, rfl⟩)
  have hc' : c ∈ revokeLinked r.certificateId w.certificates :=
    mem_revokeLinked_of_ne hc fun ht ↦ hlink (truthy_eq_some.mp ht).1
  rcases hdead _ hr' (.inl rfl) c hc' hkey with hst | hb
  · exact (hlink (h.active r (findToRevoke_spec hq).1 c hc hkey hst).1).elim
  · exact hb

/-- In a run from the first request on, every certificate of a request that is
over is refused, at all times, exactly if no request is ever revoked while a
certificate it is not linked to is still good. -/
theorem sealed_iff_revokedWhole (h₀ : Initial w) {es : List Op} :
    Run (step cfg) (fun _ _ w' ↦ Sealed cfg w') w es w' ↔ Run (step cfg) RevokedWhole w es w' := by
  constructor
  · intro hr
    refine hr.mono_of_invariant (I := Inv) h₀.inv fun t e u ht hs hsealed ↦ ⟨ht.step hs, ?_⟩
    exact revokedWhole_of_dead ht hs ((sealed_iff (ht.step hs)).mp hsealed)
  · intro hr
    refine hr.mono_of_invariant (I := fun w ↦ Inv w ∧ Sealed cfg w)
      ⟨h₀.inv, fun r hr ↦ by simp [h₀.accessRequests] at hr⟩ fun t e u ht hs hwhole ↦ ?_
    have hu := ht.1.step hs
    have hsealed : Sealed cfg u :=
      (sealed_iff hu).mpr (dead_step ht.1 hs hwhole ((sealed_iff ht.1).mp ht.2))
    exact ⟨⟨hu, hsealed⟩, hsealed⟩

/-! ### Two terminals on one request -/

def devOrg : Database where
  users := [{ id := "ana", orgId := "org", email := "ana@example.com" }]
  servers := [{ devServer with provisionStatus := "provisioned" }]
  accessPolicies :=
    [{ id := "dev", orgId := "org", maxSessionDuration := 3600, subjects := [⟨.user, "ana"⟩] }]

def devWorld : World := { now := 0, db := devOrg }

def oneTerminal : List Op :=
  [.submit "req"
      { orgId := "org"
        requesterId := "ana"
        serverId := "dev"
        reason := "debugging"
        requestedDuration := 3600 },
    .generateSshCredentials { requestId := "req", callerId := "ana" } (some ⟨"cert1", 1⟩)]

def revokeAnas : Op :=
  .revoke
    { requestId := "req"
      orgId := "org"
      callerId := "max"
      callerPermissions := ["access_requests.revoke_any"] }

/-- With one terminal, revoking the request is enough. -/
theorem oneTerminal_sealed : Initial devWorld ∧ ∃ w : World,
    w.accessRequests.map AccessRequest.status = [.revoked] ∧
    w.certificates.map Certificate.status = [.revoked] ∧
    Run (step plainConfig) (fun _ _ w' ↦ Sealed plainConfig w') devWorld
      (oneTerminal ++ [revokeAnas]) w := by
  have h₀ : Initial devWorld := ⟨rfl, rfl⟩
  have h : execIf (step plainConfig) revokedWhole devWorld (oneTerminal ++ [revokeAnas]) =
      some _ := rfl
  exact ⟨h₀, _, rfl, rfl, (sealed_iff_revokedWhole h₀).mpr (run_of_execIf h)⟩

/-- With a second terminal, the certificate of the first still opens the server
after the request is revoked. -/
theorem first_certificate_survives_revoke : ∃ w,
    Run (step plainConfig) free devWorld (oneTerminal ++
      [.generateSshCredentials { requestId := "req", callerId := "ana" } (some ⟨"cert2", 2⟩),
        revokeAnas]) w ∧
    w.accessRequests.map AccessRequest.status = [.revoked] ∧
    (w.certificates.map fun c ↦ (c.serial, c.keyId)) = [(1, certKeyId "req"), (2, certKeyId "req")] ∧
    (w.verify true ⟨.number 1, "root", some ⟨"dev", "org"⟩⟩).1.valid = true ∧
    ¬ Sealed plainConfig w := by
  have h : exec (step plainConfig) devWorld (oneTerminal ++
      [.generateSshCredentials { requestId := "req", callerId := "ana" } (some ⟨"cert2", 2⟩),
        revokeAnas]) = some _ := rfl
  refine ⟨_, run_of_exec h, rfl, rfl, rfl, fun hs ↦ ?_⟩
  have := hs _ List.mem_cons_self (.inl rfl) _ List.mem_cons_self rfl 0 devOrg
    ⟨.number 1, "root", some ⟨"dev", "org"⟩⟩ le_rfl rfl
  exact absurd this (by decide)

/-! ## What `verify` accepts -/

/-- What has to be so for a certificate to be accepted: it is good for the principal and the host,
and its request was granted and has time left.  The linked one is accepted from a host only as
long as the request is approved. -/
structure Backed (w : World) (params : VerifyParams) (c : Certificate) : Prop where
  serial : params.serial = .number c.serial
  status : c.status = .active
  principal : params.principal ∈ c.principals
  host : ∀ s ∈ params.agentServer, c.orgId = s.orgId ∧ c.issuedForId = some s.id
  time : c.validAfter ≤ w.now ∧ w.now < c.validBefore
  request : ∀ r ∈ w.accessRequests, c.keyId = certKeyId r.id →
    r.status ≠ .pending ∧ r.status ≠ .denied ∧ (∃ t, r.expiresAt = some t ∧ w.now < t) ∧
      (params.agentServer.isSome → r.certificateId = some c.id → r.status = .approved)

theorem Inv.backed {checkUserStatus : Bool} {params : VerifyParams} (h : Inv w)
    (hvalid : (w.verify checkUserStatus params).1.valid = true) :
    ∃ c ∈ w.certificates, Backed w params c := by
  change (verifyCertificate checkUserStatus w.db w.accessRequests w.certificates w.now
    params).1.valid = true at hvalid
  unfold verifyCertificate at hvalid
  split at hvalid
  · cases hvalid
  · cases hvalid
  rename_i serial hserial
  split at hvalid
  · cases hvalid
  split at hvalid
  · cases hvalid
  rename_i c hlookup
  obtain ⟨hc, rfl⟩ := lookup_spec hlookup
  split at hvalid
  · cases hvalid
  rename_i hrefusal
  simp only [refusal, ite_eq_right_iff, reduceCtorEq, imp_false, not_le, not_lt, not_not,
    ite_eq_iff, and_false, false_or, Bool.not_eq_true] at hrefusal
  obtain ⟨hrevoked, hexpired, -, hbefore, hafter, hprincipal, hhost⟩ := hrefusal
  refine ⟨c, hc, hserial, ?_, hprincipal, fun s hs ↦ ?_, ⟨hafter, hbefore⟩, fun r hr hkey ↦ ?_⟩
  · cases hstatus : c.status with
    | active => rfl
    | revoked => exact (hrevoked hstatus).elim
    | expired => exact (hexpired hstatus).elim
  · rw [Option.mem_def.mp hs, Option.any_some, decide_eq_false_iff_not, not_or, not_not,
      not_not] at hhost
    exact hhost
  obtain ⟨hpending, hdenied, t, ht, hle⟩ := h.approved r hr c hc hkey
  refine ⟨hpending, hdenied, ⟨t, ht, hbefore.trans_le hle⟩, fun hagent hlink ↦ ?_⟩
  split at hvalid
  · rename_i hnone
    exact (List.find?_eq_none.mp hnone r hr (decide_eq_true hlink)).elim
  · rename_i q hq
    have hmem := List.mem_of_find?_eq_some hq
    have hqkey := (h.linked q hmem c.id (by simpa using List.find?_some hq)).2 c hc rfl
    obtain rfl := h.toKeyed.eq hmem hr (certKeyId_injective (hqkey.symm.trans hkey))
    split at hvalid
    · exact (of_decide_eq_true ‹stillApproved w.now q = true›).1
    · cases hvalid

/-- **Whatever `verify` accepts in a run is backed by a request that was granted.** -/
theorem run_verify_backed (h₀ : Initial w) {es : List Op} (h : Run (step cfg) free w es w')
    {checkUserStatus : Bool} {params : VerifyParams}
    (hvalid : (w'.verify checkUserStatus params).1.valid = true) :
    ∃ c ∈ w'.certificates, Backed w' params c :=
  (h.invariant (I := Inv) h₀.inv fun _ _ _ ht hs _ ↦ ht.step hs).backed hvalid

/-- The host a certificate was issued for accepts it. -/
theorem oneTerminal_backed : ∃ w, Run (step plainConfig) free devWorld oneTerminal w ∧
    ∃ c ∈ w.certificates, Backed w ⟨.number 1, "root", some ⟨"dev", "org"⟩⟩ c := by
  have h : exec (step plainConfig) devWorld oneTerminal = some _ := rfl
  exact ⟨_, run_of_exec h, run_verify_backed ⟨rfl, rfl⟩ (run_of_exec h)
    (show (verify _ true _).1.valid = true from rfl)⟩

end World

end Shellius
