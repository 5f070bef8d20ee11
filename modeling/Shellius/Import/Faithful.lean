import Shellius.Import.Overwrites
import Shellius.Import.PolicyRows

/-!
# When imported rows are faithful

A row that is plain is faithful however it ends, and a row that was imported is faithful only if it
is plain (`commitRow_faithful`).
-/

namespace Shellius.Import

open Lib Action

variable {env : Surroundings} {job : ImportJob} {row : ImportRow} {w : Working}
  {actor : Option Actor}

def ImportRow.commits (row : ImportRow) : Bool := row.action = .create ∨ row.overwrites

/-- A row is committed and its work goes through, for which it is marked as imported. -/
def Imported (env : Surroundings) (job : ImportJob) (row : ImportRow) (actor : Option Actor)
    (w : Working) : Prop :=
  row.commits = true ∧ ∃ t, commitEntity env job row actor w = .ok () t

/-! ## Kinds of rows -/

section

variable {t : Working} {imported : Prop}

theorem Faithful.of_eq {w' : Working} (h : Faithful env job row w t imported)
    (hcustomers : w'.db.customers = t.db.customers) (hgroups : w'.db.groups = t.db.groups)
    (husers : w'.db.users = t.db.users) (hservers : w'.db.servers = t.db.servers)
    (hpolicies : w'.db.policies = t.db.policies) : Faithful env job row w w' imported := by
  unfold Faithful policyBefore Db.policyNamed at h ⊢
  rw [hcustomers, hgroups, husers, hservers, hpolicies]
  exact h

theorem Faithful.refl (h : ¬ imported) : Faithful env job row w w imported := by
  cases hentity : row.entity with
  | policy => exact policy_faithful_of_failed hentity h rfl
  | group =>
    unfold Faithful
    rw [hentity]
    intro _ g hg
    exact ⟨g, Keyed.find_key (List.mem_of_find?_eq_some hg), fun _ ↦ rfl, rfl, rfl, rfl, rfl⟩
  | customer =>
    unfold Faithful
    rw [hentity]
    intro _ c hc
    exact ⟨c, Keyed.find_key (List.mem_of_find?_eq_some hc), fun _ ↦ rfl, rfl, rfl, rfl⟩
  | user =>
    unfold Faithful
    rw [hentity]
    intro _ u hu
    exact ⟨u, Keyed.find_key (List.mem_of_find?_eq_some hu), .refl u⟩
  | server =>
    unfold Faithful
    rw [hentity]
    intro _ s hs
    exact ⟨s, Keyed.find_key (List.mem_of_find?_eq_some hs), .refl s⟩
  | membership =>
    unfold Faithful
    rw [hentity]
    trivial

end

/-! ## The work of a row -/

section

theorem serverNamed_eq_some {orgId : Id} {hostname : String} {s : ServerRow}
    (h : w.db.serverNamed orgId hostname = some s) : s.orgId = orgId ∧ s.hostname = hostname := by
  have hq := List.find?_some h
  exact of_decide_eq_true hq

theorem ensures_overwritten {α : Type} {found : Option α} {keeps : α → Working → Prop}
    {overwrite : Bool} (work : Bool → Step Unit)
    (h : ∀ a, found = some a → Ensures (keeps a) (work true) (fun _ ↦ keeps a) w) :
    Ensures (fun t ↦ overwrite = true → ∀ a, found = some a → keeps a t) (work overwrite)
      (fun _ t ↦ overwrite = true → ∀ a, found = some a → keeps a t) w := by
  cases overwrite with
  | false => exact ensures_of_forall (fun _ hf ↦ by cases hf) fun _ _ hf ↦ by cases hf
  | true =>
    cases found with
    | none => exact ensures_of_forall (fun _ _ _ h ↦ by cases h) fun _ _ _ _ h ↦ by cases h
    | some a =>
      refine (h a rfl).mono (fun _ hkeeps _ b hb ↦ ?_) fun _ _ hkeeps _ b hb ↦ ?_
      · exact Option.some.inj hb ▸ hkeeps
      · exact Option.some.inj hb ▸ hkeeps

theorem commitCustomer_faithful (hentity : row.entity = .customer) :
    Ensures (fun t ↦ Faithful env job row w t False)
      (commitCustomer env job.orgId row row.overwrites)
      (fun _ t ↦ Faithful env job row w t True) w := by
  unfold Faithful
  rw [hentity]
  exact ensures_overwritten (commitCustomer env job.orgId row) fun c hc ↦ commitCustomer_ensures hc

theorem commitGroup_faithful (hentity : row.entity = .group) :
    Ensures (fun t ↦ Faithful env job row w t False)
      (commitGroup env job.orgId row row.overwrites)
      (fun _ t ↦ Faithful env job row w t True) w := by
  unfold Faithful
  rw [hentity]
  exact ensures_overwritten (commitGroup env job.orgId row) fun g hg ↦ commitGroup_ensures hg

theorem commitUser_faithful (hentity : row.entity = .user) :
    Ensures (fun t ↦ Faithful env job row w t False)
      (commitUser env job.orgId row row.overwrites actor)
      (fun _ t ↦ Faithful env job row w t True) w := by
  unfold Faithful
  rw [hentity]
  exact ensures_overwritten (fun b ↦ commitUser env job.orgId row b actor) fun u hu ↦ commitUser_ensures hu

theorem commitServer_faithful (hentity : row.entity = .server) :
    Ensures (fun t ↦ Plain env job row w → Faithful env job row w t False)
      (commitServer env job row row.overwrites)
      (fun _ t ↦ Faithful env job row w t True ↔ Plain env job row w) w := by
  unfold Faithful Plain
  rw [hentity]
  dsimp only
  cases hover : row.overwrites with
  | false =>
    exact ensures_of_forall (fun _ _ hf ↦ by cases hf) fun _ _ ↦
      iff_of_true (fun hf ↦ by cases hf) fun hf ↦ by cases hf
  | true =>
    cases hs : w.db.serverNamed job.orgId (str (row.raw.get "hostname")) with
    | none =>
      exact ensures_of_forall (fun _ _ _ _ h ↦ by cases h) fun _ _ ↦
        iff_of_true (fun _ _ h ↦ by cases h) fun _ _ h ↦ by cases h
    | some s =>
      have hhost : s.hostname = str (row.raw.get "hostname") :=
        (serverNamed_eq_some hs).2
      refine (commitServer_ensures hs).mono (fun t h hplain _ s₀ hs₀ ↦ ?_) fun _ t h ↦ ?_
      · obtain rfl := Option.some.inj hs₀
        rcases h with h | ⟨s', hs', hpatched⟩
        · exact ⟨s, h, .refl s⟩
        · exact ⟨s', hs', (keptServer_iff hhost hpatched).mpr (hplain rfl s rfl)⟩
      · obtain ⟨s', hs', hpatched⟩ := h
        have hkept := keptServer_iff hhost hpatched
        constructor
        · intro h _ s₀ hs₀
          obtain rfl := Option.some.inj hs₀
          obtain ⟨s'', hs'', hk⟩ := h rfl s rfl
          obtain rfl := Option.some.inj (hs'.symm.trans hs'')
          exact hkept.mp hk
        · intro h _ s₀ hs₀
          obtain rfl := Option.some.inj hs₀
          exact ⟨s', hs', hkept.mpr (h rfl s rfl)⟩

theorem commitPolicy_faithful (hentity : row.entity = .policy) :
    Ensures (fun t ↦ Faithful env job row w t False)
      (commitPolicy env job.orgId row row.overwrites)
      (fun _ t ↦ Faithful env job row w t True ↔ PlainPolicy env job row w) w := by
  refine commitPolicy_ensures.mono (fun _ h ↦ policy_faithful_of_failed hentity id h) ?_
  rintro _ t ⟨data, hdata, hsaved⟩
  exact policy_faithful_iff hentity trivial hdata hsaved

end

theorem commitEntity_ensures :
    Ensures (fun t ↦ Plain env job row w → Faithful env job row w t False)
      (commitEntity env job row actor)
      (fun _ t ↦ Faithful env job row w t True ↔ Plain env job row w) w := by
  have hplain : row.entity ≠ .policy → row.entity ≠ .server → Plain env job row w := by
    intro hpolicy hserver
    unfold Plain
    split
    · exact absurd ‹_› hpolicy
    · exact absurd ‹_› hserver
    · trivial
  unfold commitEntity
  rw [ensures_bind, ensures_check]
  refine ⟨fun _ ↦ ?_, fun _ _ ↦ .refl id⟩
  split
  · rename_i hentity
    have hp := hplain (by rw [hentity]; decide) (by rw [hentity]; decide)
    exact (commitCustomer_faithful hentity).mono (fun _ h _ ↦ h) fun _ _ h ↦ iff_of_true h hp
  · rename_i hentity
    have hp := hplain (by rw [hentity]; decide) (by rw [hentity]; decide)
    exact (commitGroup_faithful hentity).mono (fun _ h _ ↦ h) fun _ _ h ↦ iff_of_true h hp
  · rename_i hentity
    have hp := hplain (by rw [hentity]; decide) (by rw [hentity]; decide)
    exact (commitUser_faithful hentity).mono (fun _ h _ ↦ h) fun _ _ h ↦ iff_of_true h hp
  · rename_i hentity
    exact commitServer_faithful hentity
  · rename_i hentity
    have hp : Plain env job row w ↔ PlainPolicy env job row w := by
      unfold Plain
      rw [hentity]
    exact (commitPolicy_faithful hentity).mono (fun _ h _ ↦ h) fun _ _ h ↦ h.trans hp.symm
  · rename_i hentity
    have hp := hplain (by rw [hentity]; decide) (by rw [hentity]; decide)
    unfold Faithful
    rw [hentity]
    exact ensures_of_forall (fun _ _ ↦ trivial) fun _ _ ↦ iff_of_true trivial hp

/-! ## Rows -/

theorem commitRow_of_not_commits (h : row.commits = false) :
    ∃ f, commitRow env job row actor = markRow row.id f := by
  have hno : ¬ (row.action = .create ∨ row.overwrites = true) := of_decide_eq_false h
  unfold commitRow
  split
  · exact ⟨_, rfl⟩
  · exact ⟨_, rfl⟩
  · rename_i hskip herror
    refine ⟨_, if_pos ?_⟩
    cases haction : row.action with
    | error => exact absurd haction hskip
    | skip => exact absurd haction herror
    | create => exact absurd (.inl haction) hno
    | conflict => exact ⟨rfl, fun hd ↦ hno (.inr (decide_eq_true ⟨haction, hd⟩))⟩

theorem commitRow_of_commits (h : row.commits = true) :
    commitRow env job row actor = (do
      let result ← attempt (commitEntity env job row actor)
      markRow row.id (outcome result)) := by
  unfold commitRow
  rcases of_decide_eq_true h with hcreate | hover
  · rw [hcreate]
    exact if_neg fun hc ↦ by cases hc.1
  · obtain ⟨hconflict, hdecision⟩ := of_decide_eq_true hover
    rw [hconflict]
    exact if_neg fun hc ↦ hc.2 hdecision

theorem after_attempt {t : Working} {result : Except ApiError Unit}
    (h : attempt (commitEntity env job row actor) w = .ok result t) :
    ∃ f, (attempt (commitEntity env job row actor) >>= fun result ↦
        markRow row.id (outcome result)).after w =
      { t with db := { t.db with rows := t.db.rows.change row.id f } } :=
  ⟨outcome result, after_bind_of_ok h⟩

theorem attempt_of_ok {t : Working} (h : commitEntity env job row actor w = .ok () t) :
    attempt (commitEntity env job row actor) w = .ok (.ok ()) t := by
  unfold attempt
  rw [h]

theorem attempt_of_error {t : Working} {e : ApiError}
    (h : commitEntity env job row actor w = .error e t) :
    attempt (commitEntity env job row actor) w = .ok (.error e) t := by
  unfold attempt
  rw [h]

/-- **A row that is plain is faithful however it ends, and a row that was imported is faithful only
if it is plain.** -/
theorem commitRow_faithful :
    (Plain env job row w → Faithful env job row w ((commitRow env job row actor).after w)
      (Imported env job row actor w)) ∧
    (Imported env job row actor w → Faithful env job row w ((commitRow env job row actor).after w)
      (Imported env job row actor w) → Plain env job row w) := by
  cases hcommits : row.commits with
  | false =>
    have hno : ¬ Imported env job row actor w := by
      rintro ⟨h, -⟩
      rw [hcommits] at h
      cases h
    obtain ⟨f, hf⟩ : ∃ f, commitRow env job row actor = _ := commitRow_of_not_commits hcommits
    refine ⟨fun _ ↦ ?_, fun h ↦ absurd h hno⟩
    rw [hf]
    exact (Faithful.refl hno).of_eq rfl rfl rfl rfl rfl
  | true =>
    rw [commitRow_of_commits hcommits]
    have hwork : Ensures _ (commitEntity env job row actor) _ w := commitEntity_ensures
    rcases hwork.cases with ⟨_, t, ht, h⟩ | ⟨e, t, ht, h⟩
    · have himported : Imported env job row actor w = True := eq_true ⟨hcommits, t, ht⟩
      obtain ⟨f, hafter⟩ := after_attempt (attempt_of_ok ht)
      rw [hafter, himported]
      exact ⟨fun hplain ↦ (h.mpr hplain).of_eq rfl rfl rfl rfl rfl,
        fun _ hfaithful ↦ h.mp (hfaithful.of_eq rfl rfl rfl rfl rfl)⟩
    · have hno : Imported env job row actor w = False := by
        refine eq_false ?_
        rintro ⟨-, u, hu⟩
        rw [ht] at hu
        cases hu
      obtain ⟨f, hafter⟩ := after_attempt (attempt_of_error ht)
      rw [hafter, hno]
      exact ⟨fun hplain ↦ (h hplain).of_eq rfl rfl rfl rfl rfl, fun hf ↦ hf.elim⟩

/-! A policy is overwritten by a row that says all that was not the default, and a row forbids
something to two users of whom one is not there. -/

private def uploadEnv : Surroundings where
  keystore :=
    { toLowerCase := fun s ↦ String.ofList (s.toList.map Char.toLower)
      encrypt := id
      decrypt := .ok
      normalizePrivateKey := fun pem _ ↦ .ok
        { keyType := "ed25519", publicKey := pem, privateKey := pem, fingerprint := pem }
      publicKeyMatches := fun parsed publicKey ↦ parsed.publicKey = publicKey
      parseCertificate := .ok }
  toLowerCase_empty := by decide
  toUpperCase s := String.ofList (s.toList.map Char.toUpper)
  rules := plainText
  parseArray _ := none
  parseObject _ := none
  cuid n := "id-" ++ String.ofList (List.replicate n 'x')

private def uploadJob : ImportJob := { id := "job", orgId := "org", status := .committing }

private def uploadRow (cells : List (String × Cell)) : ImportRow where
  id := "row"
  jobId := "job"
  entity := .policy
  raw := cells
  action := .conflict
  decision := some .overwrite

private def uploaded : Working where
  db :=
    { users := ⟨[{ id := "u1", orgId := "org", email := "ann@example.org", name := "Ann"
                   role := .member }], by decide⟩
      policies := ⟨[{ id := "p1", orgId := "org", name := "prod", effect := .deny, priority := 5
                      maxSessionDuration := 3600, subjects := [⟨.user, "u1"⟩] }], by decide⟩ }

private def overwriteRow : ImportRow :=
  uploadRow [("name", .text "prod"), ("effect", .text "deny"), ("priority", .text "7"),
    ("subjectUsers", .text "Ann@example.org")]

private def denyRow : ImportRow :=
  { uploadRow [("name", .text "staging"), ("effect", .text "DENY"),
      ("subjectUsers", .text "ann@example.org; bob@example.org")] with
    action := .create, decision := none }

private theorem overwriteRow_plain : Plain uploadEnv uploadJob overwriteRow uploaded := by
  have hbefore : policyBefore uploadJob overwriteRow uploaded =
      some { id := "p1", orgId := "org", name := "prod", effect := .deny, priority := 5
             maxSessionDuration := 3600, subjects := [⟨.user, "u1"⟩] } := by decide +kernel
  show PlainPolicy uploadEnv uploadJob overwriteRow uploaded
  unfold PlainPolicy
  rw [hbefore]
  refine ⟨fun kind ↦ ?_, fun name hname ↦ ?_, ?_⟩
  · unfold AllDenote
    cases kind with
    | group => decide +kernel
    | role => decide +kernel
    | user => decide +kernel
  · have hno : text (overwriteRow.raw.get "approverGroup") = none := by decide +kernel
    rw [hno] at hname
    cases hname
  · constructor
    · intro ho
      cases ho
    · exact fun _ ↦ rfl
    · exact fun _ ↦ rfl
    · exact fun _ ↦ rfl
    · exact fun _ ↦ rfl
    · exact fun _ ↦ rfl
    · intro ho
      cases ho
    · exact fun _ ↦ rfl
    · exact fun _ ↦ rfl
    · exact fun _ ↦ rfl
    · intro kind ho id hid
      obtain ⟨rfl, rfl⟩ := PolicySubject.mk.inj (List.mem_singleton.mp hid)
      cases ho

private def ends (row : ImportRow) : Bool :=
  match commitEntity uploadEnv uploadJob row none uploaded with
  | .ok _ _ => true
  | .error _ _ => false

private theorem imported_of_ends {row : ImportRow} (hcommits : row.commits = true)
    (h : ends row = true) : Imported uploadEnv uploadJob row none uploaded := by
  refine ⟨hcommits, ?_⟩
  unfold ends at h
  cases hx : commitEntity uploadEnv uploadJob row none uploaded with
  | ok a t => exact ⟨t, rfl⟩
  | error e t =>
    rw [hx] at h
    cases h

theorem commitRow_faithful_in_use :
    Imported uploadEnv uploadJob overwriteRow none uploaded ∧
      Faithful uploadEnv uploadJob overwriteRow uploaded
        ((commitRow uploadEnv uploadJob overwriteRow none).after uploaded)
        (Imported uploadEnv uploadJob overwriteRow none uploaded) := by
  exact ⟨imported_of_ends (by decide) (by decide +kernel), commitRow_faithful.1 overwriteRow_plain⟩

/-- The row that forbids something to two users is imported, and one of them is not forbidden it. -/
theorem commitRow_drops_a_subject :
    ¬ ∀ (env : Surroundings) (job : ImportJob) (row : ImportRow) (w : Working)
      (actor : Option Actor), Faithful env job row w ((commitRow env job row actor).after w)
        (Imported env job row actor w) := by
  intro h
  obtain ⟨p', -, hsaid⟩ := (h uploadEnv uploadJob denyRow uploaded none).1
    (imported_of_ends (by decide) (by decide +kernel))
  obtain ⟨id, hid, -⟩ := (hsaid.subjects .user fun hover ↦ by cases hover).1 "bob@example.org"
    (by decide +kernel)
  have hnone : denotes uploadEnv uploaded uploadJob.orgId .user "bob@example.org" = none := by
    decide +kernel
  rw [hnone] at hid
  cases hid

end Shellius.Import
