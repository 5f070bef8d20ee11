import Shellius.Lib.Pool
import Shellius.Lib.Streak
import Shellius.Directory.Sync

/-!
# The grace period

A user is to be suspended only after they were absent for the whole grace period.
The period is counted from `firstSeenAt` of their finding, which nothing resets: a
run that sees the user again closes the finding, and the next run that misses them
opens it again with the old clock.  So the grace period is continuous absence as
long as nobody is missed again after a run that did not miss them.

Every run that believes its listing judges the users, also one that then stops at
the limits; what it found is kept beside the store here.
-/

namespace Shellius

open Lib

/-! ## Judgements -/

/-- Whom a run judged absent, if it judged anyone: who looks absent through an
identity and is not seen through another. -/
def judgement (s : SyncStore) (row : DirectorySync) (reading : Except String Directory)
    (clock : RunClock) : Option (Observation Millis Id) :=
  match reading with
  | .error _ => none
  | .ok d =>
    if s.disbelief row d = none then
      some ⟨clock.seenAt, ((s.candidates row d).map fun c ↦ c.user.id).filter fun id ↦
        id ∉ s.stillPresent row d⟩
    else none

structure GraceState where
  store : SyncStore
  judged : List (Observation Millis Id) := []

/-- A run of the sync, or a change of the users, providers and identities. -/
inductive GraceEvent
  | run (row : DirectorySync) (reading : Except String Directory) (clock : RunClock) (runId : Id)
  | change (tables : Tenancy) (ssoConfigs : List SsoConfig) (identities : List UserIdentity)

/-- Runs of one sync with one grace period, at increasing times.  The findings of a
user go with the user. -/
def graceStep (syncId : Id) (graceHours : Nat) (s : GraceState) : GraceEvent → Option GraceState
  | .run row reading clock runId =>
    if row.id = syncId ∧ row.graceHours = graceHours ∧
        ∀ o ∈ s.judged, o.time < clock.startedAt then
      some ⟨runSync s.store row reading clock runId,
        s.judged ++ (judgement s.store row reading clock).toList⟩
    else none
  | .change tables ssoConfigs identities =>
    some ⟨{ s.store with
      tables, ssoConfigs, identities
      findings := s.store.findings.filter fun f ↦ (tables.users.find f.userId).isSome }, s.judged⟩

/-- Whom a run suspends was absent in every judgement since one that is as old as the
grace period. -/
def OutlastsGrace (graceHours : Nat) (s : GraceState) (e : GraceEvent) (s' : GraceState) : Prop :=
  match e with
  | .run _ _ clock _ => ∀ u ∈ s.store.tables.users, s'.store.tables.users.find u.id ≠ some u →
      ∃ t ≤ clock.actedAt - graceHours * hourMs, StreakSince s'.judged u.id t
  | .change _ _ _ => True

/-- No user is missed again after a gap: who looks absent is not seen through another
identity, and was judged absent by the last run that judged if they have a finding. -/
def Gapless (graceHours : Nat) (s : GraceState) : GraceEvent → Prop
  | .run row (.ok d) _ _ => s.store.disbelief row d = none → ∀ c ∈ s.store.candidates row d,
      c.user.id ∉ s.store.stillPresent row d ∧
      (graceHours = 0 ∨ s.store.findings.find (row.id, c.user.id) = none ∨
        FoundLast s.judged c.user.id)
  | _ => True

instance (graceHours : Nat) (s : GraceState) : (e : GraceEvent) → Decidable (Gapless graceHours s e)
  | .run row (.ok d) _ _ => inferInstanceAs (Decidable (s.store.disbelief row d = none →
      ∀ c ∈ s.store.candidates row d, _ ∧ _))
  | .run _ (.error _) _ _ | .change _ _ _ => .isTrue trivial

section

variable {s : SyncStore} {row : DirectorySync} {reading : Except String Directory}
  {clock : RunClock} {runId : Id} {o : Observation Millis Id}

theorem runSync_of_judgement_none (h : judgement s row reading clock = none) :
    (runSync s row reading clock runId).tables = s.tables ∧
      (runSync s row reading clock runId).findings = s.findings := by
  unfold judgement at h
  unfold runSync
  cases reading with
  | error message => exact ⟨rfl, rfl⟩
  | ok d =>
    dsimp only at h ⊢
    split at h
    · cases h
    · rename_i hdisbelief
      cases hreason : s.disbelief row d with
      | none => exact absurd hreason hdisbelief
      | some reason => exact ⟨rfl, rfl⟩

theorem judgement_eq_some (h : judgement s row reading clock = some o) :
    ∃ d, reading = .ok d ∧ s.disbelief row d = none ∧ o.time = clock.seenAt ∧
      ∀ id, id ∈ o.items ↔ (∃ c ∈ s.candidates row d, c.user.id = id) ∧
        id ∉ s.stillPresent row d := by
  unfold judgement at h
  cases reading with
  | error message => cases h
  | ok d =>
    dsimp only at h
    split at h
    · rename_i hbelieved
      obtain rfl := Option.some.inj h
      refine ⟨d, rfl, hbelieved, rfl, fun id ↦ ?_⟩
      rw [List.mem_filter, List.mem_map, decide_eq_true_iff]
    · cases h

theorem clocks_runSync {judged : List (Observation Millis Id)} {graceHours : Nat}
    (h : judgement s row reading clock = some o)
    (hgap : Gapless graceHours ⟨s, judged⟩ (.run row reading clock runId)) :
    (fun id ↦ firstSeenAt? (runSync s row reading clock runId).findings (row.id, id)) =
      startClock (fun id ↦ firstSeenAt? s.findings (row.id, id)) o := by
  obtain ⟨d, rfl, hbelieved, htime, hitems⟩ := judgement_eq_some h
  have hrun : runSync s row (.ok d) clock runId = s.reconcile row d clock runId := by
    rw [runSync, hbelieved]
  funext id
  rw [hrun, firstSeenAt?_reconcile, startClock, htime]
  refine if_congr ?_ rfl rfl
  rw [hitems, List.mem_map]
  constructor
  · rintro ⟨-, c, hc, rfl⟩
    exact ⟨⟨c, hc, rfl⟩, (hgap hbelieved c hc).1⟩
  · rintro ⟨hc, -⟩
    exact ⟨rfl, hc⟩

end

/-! ## Runs of the sync -/

section

variable {syncId : Id} {graceHours : Nat} {s s' : GraceState}

/-- The clocks of the findings tell since when users have been absent. -/
def GraceState.Clocked (syncId : Id) (s : GraceState) : Prop :=
  Lib.Clocked s.judged fun id ↦ firstSeenAt? s.store.findings (syncId, id)

theorem clocked_change {tables : Tenancy} {ssoConfigs : List SsoConfig}
    {identities : List UserIdentity} (h : s.Clocked syncId)
    (hstep : graceStep syncId graceHours s (.change tables ssoConfigs identities) = some s') :
    s'.Clocked syncId := by
  obtain rfl := Option.some.inj hstep
  refine Lib.Clocked.mono h fun id t hclock ↦ ?_
  obtain ⟨f, hf, hfirst⟩ := Option.map_eq_some_iff.mp hclock
  rw [Keyed.find_filter, Option.filter_eq_some_iff] at hf
  exact Option.map_eq_some_iff.mpr ⟨f, hf.1, hfirst⟩

theorem graceStep_run {row : DirectorySync} {reading : Except String Directory} {clock : RunClock}
    {runId : Id} (hstep : graceStep syncId graceHours s (.run row reading clock runId) = some s') :
    row.id = syncId ∧ row.graceHours = graceHours ∧
      (∀ o ∈ s.judged, o.time < clock.seenAt) ∧
      s' = ⟨runSync s.store row reading clock runId,
        s.judged ++ (judgement s.store row reading clock).toList⟩ := by
  rw [graceStep] at hstep
  split at hstep
  · rename_i hguard
    obtain ⟨hid, hgrace, hlater⟩ := hguard
    exact ⟨hid, hgrace, fun o ho ↦ lt_of_lt_of_le (hlater o ho) clock.started_le,
      (Option.some.inj hstep).symm⟩
  · cases hstep

theorem clocked_run {row : DirectorySync} {reading : Except String Directory} {clock : RunClock}
    {runId : Id} (h : s.Clocked syncId) (hgrace : graceHours ≠ 0)
    (hstep : graceStep syncId graceHours s (.run row reading clock runId) = some s')
    (hgap : Gapless graceHours s (.run row reading clock runId)) : s'.Clocked syncId := by
  obtain ⟨rfl, -, hlater, rfl⟩ := graceStep_run hstep
  unfold GraceState.Clocked at h ⊢
  cases hjudge : judgement s.store row reading clock with
  | none =>
    dsimp only
    rw [(runSync_of_judgement_none hjudge).2, Option.toList_none, List.append_nil]
    exact h
  | some o =>
    obtain ⟨d, rfl, hbelieved, htime, hitems⟩ := judgement_eq_some hjudge
    dsimp only
    rw [clocks_runSync hjudge hgap, Option.toList_some]
    refine h.snoc (fun o' ho' ↦ htime ▸ hlater o' ho') fun id hid ↦ ?_
    obtain ⟨⟨c, hc, rfl⟩, -⟩ := (hitems id).mp hid
    rcases (hgap hbelieved c hc).2 with hzero | hnone | hlast
    · exact absurd hzero hgrace
    · refine .inl ?_
      rw [firstSeenAt?, hnone, Option.map_none]
    · exact .inr hlast

theorem outlastsGrace_run {row : DirectorySync} {reading : Except String Directory}
    {clock : RunClock} {runId : Id} (h : graceHours ≠ 0 → s'.Clocked syncId)
    (hstep : graceStep syncId graceHours s (.run row reading clock runId) = some s')
    (hgap : Gapless graceHours s (.run row reading clock runId)) :
    OutlastsGrace graceHours s (.run row reading clock runId) s' := by
  obtain ⟨rfl, rfl, hlater, rfl⟩ := graceStep_run hstep
  intro u hu hchanged
  obtain ⟨d, ids, rfl, hid, -, hdone⟩ := runSync_changed hu hchanged
  obtain ⟨⟨c, hc, hcu⟩, hdue, -⟩ := hdone.each u.id hid
  obtain ⟨o, ho⟩ : ∃ o, judgement s.store row (.ok d) clock = some o := by
    rw [judgement, if_pos hdone.believed]
    exact ⟨_, rfl⟩
  obtain ⟨d', hd, -, htime, hitems⟩ := judgement_eq_some ho
  obtain rfl := Except.ok.inj hd
  have hjudged : u.id ∈ o.items :=
    (hitems u.id).mpr ⟨⟨c, hc, hcu⟩, hcu ▸ (hgap hdone.believed c hc).1⟩
  dsimp only
  rw [ho, Option.toList_some]
  by_cases hgrace : row.graceHours = 0
  · refine ⟨clock.seenAt, ?_, htime ▸ streakSince_start (htime ▸ hlater) hjudged⟩
    rw [hgrace, Int.natCast_zero, Int.zero_mul, Int.sub_zero]
    exact clock.seen_le
  · have hclocked := h hgrace
    unfold GraceState.Clocked at hclocked
    dsimp only at hclocked
    rw [clocks_runSync ho hgap, ho, Option.toList_some] at hclocked
    refine ⟨_, ?_, hclocked u.id _ (by rw [startClock, if_pos hjudged])
      (foundLast_concat.mpr hjudged)⟩
    rw [isEligible, decide_eq_true_iff] at hdue
    rcases hdue with hzero | hdue
    · exact absurd hzero hgrace
    · rw [htime]
      exact hdue

/-- Runs of one sync suspend only users who were absent throughout the grace period,
if no user is ever missed again after a gap. -/
theorem run_outlastsGrace {es : List GraceEvent} (h₀ : s.judged = [])
    (h : Run (graceStep syncId graceHours) (fun s e _ ↦ Gapless graceHours s e) s es s') :
    Run (graceStep syncId graceHours) (OutlastsGrace graceHours) s es s' := by
  refine h.mono_of_invariant (I := fun t ↦ graceHours ≠ 0 → t.Clocked syncId) ?_ ?_
  · rintro - id t - ⟨o, ho, -⟩
    rw [h₀] at ho
    cases ho
  · intro t e u hI hstep hgap
    cases e with
    | change tables ssoConfigs identities =>
      exact ⟨fun hgrace ↦ clocked_change (hI hgrace) hstep, trivial⟩
    | run row reading clock runId =>
      have hclocked : graceHours ≠ 0 → u.Clocked syncId :=
        fun hgrace ↦ clocked_run (hI hgrace) hgrace hstep hgap
      exact ⟨hclocked, outlastsGrace_run hclocked hstep hgap⟩

end

/-! ## A clock that was not reset -/

def linkedBea : GraceState where
  store :=
    { tables := { users := { rows :=
        [{ id := "u1", orgId := "o1", email := "bea@x", name := "Bea" }] } }
      ssoConfigs := [{ id := "p1", orgId := "o1" }]
      identities := [⟨"i1", "o1", "u1", "p1", some "d1", none⟩] }

def dailySync : DirectorySync :=
  { id := "y1", orgId := "o1", ssoConfigId := "p1", action := .suspend, dryRun := false }

def runAt (hour : Int) (externalId : String) : GraceEvent :=
  .run dailySync (.ok ⟨true, id, [⟨some externalId, none, true⟩]⟩)
    ⟨hour * hourMs, hour * hourMs, hour * hourMs, le_refl _, le_refl _⟩ "r1"

theorem run_outlastsGrace_absent : ∃ s',
    Run (graceStep "y1" 24) (OutlastsGrace 24) linkedBea [runAt 0 "d2", runAt 25 "d2"] s' :=
  ⟨_, run_outlastsGrace rfl ((Run.single rfl (by decide)).snoc rfl (by decide))⟩

/-- Bea is missed, seen again, and suspended the next time she is missed. -/
theorem returnedUser_suspended : ∃ s s',
    Run (graceStep "y1" 24) free linkedBea [runAt 0 "d2", runAt 1 "d1"] s ∧
    graceStep "y1" 24 s (runAt 25 "d2") = some s' ∧
    (s.store.tables.users.find "u1").any (fun u ↦ u.status = .active) = true ∧
    (s'.store.tables.users.find "u1").any (fun u ↦ u.status = .suspended) = true ∧
    ¬ OutlastsGrace 24 s (runAt 25 "d2") s' := by
  refine ⟨_, _, (Run.single rfl trivial).snoc rfl trivial, rfl, by decide, by decide, ?_⟩
  intro hgrace
  obtain ⟨t, ht, -, hall⟩ := hgrace { id := "u1", orgId := "o1", email := "bea@x", name := "Bea" }
    (by decide) (by decide)
  -- the run that saw her is within the grace period
  exact absurd (hall ⟨1 * hourMs, []⟩ (by decide) (le_trans ht (by decide))) (by decide)

end Shellius
